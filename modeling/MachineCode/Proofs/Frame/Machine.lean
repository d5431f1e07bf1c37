import MachineCode.Function
import MachineCode.Target
import Mathlib.Logic.Function.Basic

/-!
# A machine with a stack

The machine has sixteen registers of sixteen bits and a memory of bytes that wraps around. It
pushes, pops, copies and offsets registers as their instructions say. Of every other instruction
only the footprint is known: it leaves the stack pointer and the frame pointer alone unless it
writes them, a call moves the stack pointer by what its callee pops, and nothing but a push writes
into a protected area. Every call has a callee of its own: it is known by its block and by the
number of calls behind it there.

`Reached` follows the paths of a function from its entry, along branches to blocks and branches by
a number of bytes. `Safe` is the assertion that holds in front of straight code if whatever comes
next passes its checks, and `Reached.safe` is the rule for whole functions: if every block is safe
from the invariant at block boundaries on (`SafeBlocks`), then so is the rest of the block at every
point that a path reaches. `Reached.exists_boundary` leads from such a point back to the last
boundary, from which straight code has run (`Ran`).
-/

namespace MachineCode

/-- Whether the opcode writes its first operand. -/
def Opcode.hasDestination : Opcode → Bool
  | .pop16r | .mov16rr | .mov16ri | .mov16rm | .add16rr | .add16ri | .sub16rr | .sub16ri
  | .and16rr | .or16rr | .xor16rr | .ldImm64 => true
  | _ => false

namespace Operand

/-- Whether the operand is a result in a register of the given number. -/
def defines (number : Fin 16) : Operand → Bool
  | .register (.physical name) flags => flags.isDef && name.number == number
  | _ => false

/-- Whether the operand stands for a register of the given number. A frame slot may resolve to
any base register. -/
def denotes (number : Fin 16) : Operand → Bool
  | .register (.physical name) _ => name.number == number
  | .frameIndex _ => true
  | _ => false

end Operand

namespace Instr

/-- Whether the instruction writes a register of the given number, at either width. -/
def writes (instr : Instr) (number : Fin 16) : Bool :=
  instr.operands.any (Operand.defines number) ||
    (instr.opcode.hasDestination && instr.operands.head?.any (Operand.denotes number))

def isCall (instr : Instr) : Bool :=
  instr.opcode == .jal

def isBranch (instr : Instr) : Bool :=
  instr.opcode.isBranch

/-- Whether the instruction jumps by a number of bytes. -/
def isSkip (instr : Instr) : Bool :=
  instr.isBranch && instr.operands[0]?.any fun operand => operand.immediate?.isSome

end Instr

/-- The number of calls in code. -/
def callCount (instrs : List Instr) : Nat :=
  instrs.countP Instr.isCall

theorem callCount_cons_of_not_isCall {instr : Instr} (noCall : instr.isCall = false)
    (rest : List Instr) : callCount (instr :: rest) = callCount rest :=
  List.countP_cons_of_neg (by simp [noCall])

theorem callCount_append (left right : List Instr) :
    callCount (left ++ right) = callCount left + callCount right :=
  List.countP_append

/-- Code without calls. -/
theorem callCount_eq_zero {instrs : List Instr}
    (noCall : ∀ instr ∈ instrs, instr.isCall = false) : callCount instrs = 0 := by
  rw [callCount, List.countP_eq_zero]
  intro instr member
  simp [noCall instr member]

/-- The instructions whose effect is known exactly. -/
inductive Form where
  | push (source : Fin 16)
  | pop (target : Fin 16)
  | copy (target source : Fin 16)
  | offset (target source : Fin 16) (amount : BitVec 16)
  | other
  deriving DecidableEq, Repr

/-- An amount as a machine word. -/
def wordOf (amount : Int64) : BitVec 16 :=
  amount.toBitVec.setWidth 16

theorem wordOf_zero : wordOf (UInt64.toInt64 0) = 0#16 := by decide

def Instr.form (instr : Instr) : Form :=
  match instr.opcode, instr.operands with
  | .push16r, [.register (.physical ⟨source, .word⟩) _] => .push source
  | .pop16r, [.register (.physical ⟨target, .word⟩) _] => .pop target
  | .mov16rr, [.register (.physical ⟨target, .word⟩) _, .register (.physical ⟨source, .word⟩) _] =>
      .copy target source
  | .add16ri, [.register (.physical ⟨target, .word⟩) _, .register (.physical ⟨source, .word⟩) _,
      .immediate amount, .register (.physical ⟨2, .word⟩) _] =>
      .offset target source (wordOf amount)
  | .sub16ri, [.register (.physical ⟨target, .word⟩) _, .register (.physical ⟨source, .word⟩) _,
      .immediate amount, .register (.physical ⟨2, .word⟩) _] =>
      .offset target source (-wordOf amount)
  | _, _ => .other

/-- The state of the machine. -/
structure Machine where
  registers : Fin 16 → BitVec 16
  memory : BitVec 16 → BitVec 8

namespace Machine

/-- The stack pointer. -/
def sp (machine : Machine) : BitVec 16 :=
  machine.registers Register.sp.number

/-- The frame pointer. -/
def fp (machine : Machine) : BitVec 16 :=
  machine.registers Register.fp.number

/-- The word at an address, its low byte first. -/
def load (machine : Machine) (address : BitVec 16) : BitVec 16 :=
  machine.memory (address + 1) ++ machine.memory address

def set (machine : Machine) (number : Fin 16) (value : BitVec 16) : Machine :=
  { machine with registers := Function.update machine.registers number value }

/-- Write a word, its low byte first. -/
def store (machine : Machine) (address value : BitVec 16) : Machine :=
  { machine with
    memory := Function.update (Function.update machine.memory address (value.setWidth 8))
      (address + 1) (value.extractLsb' 8 8) }

@[simp] theorem registers_set_self (machine : Machine) (number : Fin 16) (value : BitVec 16) :
    (machine.set number value).registers number = value := by
  simp [set]

theorem registers_set_of_ne (machine : Machine) {number other : Fin 16} (value : BitVec 16)
    (different : other ≠ number) :
    (machine.set number value).registers other = machine.registers other := by
  simp [set, different]

/-- The state in which every register has a number of its own and the memory is blank. -/
def numbered : Machine where
  registers number := BitVec.ofNat 16 (1000 + number)
  memory _ := 0#8

/-- Lower the stack pointer by two and store a register there. -/
def push (machine : Machine) (source : Fin 16) : Machine :=
  (machine.store (machine.sp - 2) (machine.registers source)).set Register.sp.number
    (machine.sp - 2)

/-- Load a register from the top of the stack and raise the stack pointer by two. -/
def pop (machine : Machine) (target : Fin 16) : Machine :=
  (machine.set Register.sp.number (machine.sp + 2)).set target (machine.load machine.sp)

end Machine

/-- What holds outside of code: the bytes that callees pop off the stack, for every call by the
number of calls behind it, and the addresses at which the function keeps what it has saved. -/
structure Setting where
  pops : Nat → BitVec 16
  saveArea : BitVec 16 → Prop

namespace Setting

variable (setting : Setting)

/-- The setting of code that stands in front of other code. -/
def before (instrs : List Instr) : Setting where
  pops calls := setting.pops (calls + callCount instrs)
  saveArea := setting.saveArea

theorem before_nil : setting.before [] = setting := rfl

theorem before_append (left right : List Instr) :
    setting.before (left ++ right) = (setting.before right).before left := by
  simp only [before, callCount_append, Nat.add_assoc]

/-- Code matters to what stands in front of it only for the number of its calls. -/
theorem before_congr {instrs other : List Instr} (same : callCount instrs = callCount other) :
    setting.before instrs = setting.before other := by
  rw [before, same, before]

end Setting

/-- The bytes that an instruction takes off the stack on behalf of a callee. No call stands behind
it. -/
def Instr.popped (setting : Setting) (instr : Instr) : BitVec 16 :=
  if instr.opcode = .jal then setting.pops 0 else 0#16

/-- An instruction changes only what it may: the save area keeps its contents, the frame pointer
its value, and the stack pointer moves by what a callee pops. -/
structure Footprint (setting : Setting) (instr : Instr) (before after : Machine) : Prop where
  saveArea : ∀ address, setting.saveArea address → after.memory address = before.memory address
  fp : instr.writes Register.fp.number = false → after.fp = before.fp
  sp : instr.writes Register.sp.number = false → after.sp = before.sp + instr.popped setting

/-- What an instruction can do. -/
def Instr.Effect (setting : Setting) (instr : Instr) (before after : Machine) : Prop :=
  match instr.form with
  | .push source => after = before.push source
  | .pop target => after = before.pop target
  | .copy target source => after = before.set target (before.registers source)
  | .offset target source amount =>
      ∃ status, after =
        (before.set Register.sr.number status).set target (before.registers source + amount)
  | .other => Footprint setting instr before after

section

variable {setting : Setting} {before after : Machine}

theorem effect_push {register : Register} (isWord : register.width = .word) :
    (Instr.push register).Effect setting before after ↔ after = before.push register.number := by
  obtain ⟨number, width⟩ := register
  cases isWord
  rfl

theorem effect_pop {register : Register} (isWord : register.width = .word) :
    (Instr.pop register).Effect setting before after ↔ after = before.pop register.number := by
  obtain ⟨number, width⟩ := register
  cases isWord
  rfl

theorem effect_copy {target source : Register} (targetIsWord : target.width = .word)
    (sourceIsWord : source.width = .word) :
    (Instr.copy target source).Effect setting before after ↔
      after = before.set target.number (before.registers source.number) := by
  obtain ⟨target, width⟩ := target
  obtain ⟨source, sourceWidth⟩ := source
  cases targetIsWord
  cases sourceIsWord
  rfl

theorem effect_lowerStack {amount : Int64} :
    (Instr.lowerStack amount).Effect setting before after ↔
      ∃ status, after = (before.set Register.sr.number status).set Register.sp.number
        (before.sp + -wordOf amount) :=
  Iff.rfl

theorem effect_raiseStack {amount : Int64} :
    (Instr.raiseStack amount).Effect setting before after ↔
      ∃ status, after = (before.set Register.sr.number status).set Register.sp.number
        (before.sp + wordOf amount) :=
  Iff.rfl

/-- A call can change nothing but the stack pointer. -/
theorem effect_call (setting : Setting) (operands : List Operand) (before : Machine) :
    Instr.Effect setting { opcode := .jal, operands } before
      (before.set Register.sp.number (before.sp + setting.pops 0)) :=
  ⟨fun _ _ => rfl, fun _ => before.registers_set_of_ne _ (by decide),
    fun _ => before.registers_set_self _ _⟩

/-- A conditional branch can change nothing. -/
theorem effect_branch (setting : Setting) (operands : List Operand) (before : Machine) :
    Instr.Effect setting { opcode := .jcc, operands } before before :=
  ⟨fun _ _ => rfl, fun _ => rfl, fun _ => (BitVec.add_zero _).symm⟩

end

theorem Instr.opcode_of_form {instr : Instr} {number : Fin 16}
    (formEq : instr.form = .push number ∨ instr.form = .pop number) :
    instr.opcode = .push16r ∨ instr.opcode = .pop16r := by
  unfold Instr.form at formEq
  split at formEq <;> simp_all

/-- The register in an instruction's known form is one that the instruction writes. -/
theorem Instr.writes_of_form {instr : Instr} {target source : Fin 16}
    (formEq : instr.form = .copy target source ∨
      ∃ amount, instr.form = .offset target source amount) :
    instr.writes target = true ∧ instr.opcode ≠ .jal := by
  obtain ⟨opcode, operands⟩ := instr
  unfold Instr.form at formEq
  split at formEq <;> simp_all [Instr.writes, Opcode.hasDestination, Operand.denotes]

/-- Apart from pushes and pops, all instructions have the same footprint. -/
theorem Instr.Effect.footprint {setting : Setting} {instr : Instr} {before after : Machine}
    (effect : instr.Effect setting before after)
    (noPush : instr.opcode ≠ .push16r) (noPop : instr.opcode ≠ .pop16r) :
    Footprint setting instr before after := by
  have noStack {number : Fin 16} (formEq : instr.form = .push number ∨ instr.form = .pop number) :
      False := by
    rcases instr.opcode_of_form formEq with push | pop
    · exact noPush push
    · exact noPop pop
  have elsewhere {target number : Fin 16} (written : instr.writes target = true)
      (unwritten : instr.writes number = false) : number ≠ target := by
    rintro rfl
    rw [written] at unwritten
    contradiction
  unfold Instr.Effect at effect
  cases formEq : instr.form with
  | push source => exact (noStack (.inl formEq)).elim
  | pop target => exact (noStack (.inr formEq)).elim
  | copy target source =>
      rw [formEq] at effect
      subst effect
      obtain ⟨written, noCall⟩ := instr.writes_of_form (.inl formEq)
      refine ⟨fun _ _ => rfl, fun unwritten => ?_, fun unwritten => ?_⟩
      · exact before.registers_set_of_ne _ (elsewhere written unwritten)
      · rw [Instr.popped, if_neg noCall, BitVec.add_zero]
        exact before.registers_set_of_ne _ (elsewhere written unwritten)
  | offset target source amount =>
      rw [formEq] at effect
      obtain ⟨status, rfl⟩ := effect
      obtain ⟨written, noCall⟩ := instr.writes_of_form (.inr ⟨amount, formEq⟩)
      have kept {number : Fin 16} (noStatus : number ≠ Register.sr.number)
          (unwritten : instr.writes number = false) :=
        (Machine.registers_set_of_ne (before.set Register.sr.number status)
          (before.registers source + amount) (elsewhere written unwritten)).trans
          (before.registers_set_of_ne status noStatus)
      refine ⟨fun _ _ => rfl, kept (by decide), fun unwritten => ?_⟩
      rw [Instr.popped, if_neg noCall, BitVec.add_zero]
      exact kept (by decide) unwritten
  | other =>
      rw [formEq] at effect
      exact effect

/-- What holds outside of a function: the bytes that callees pop off the stack, for every call by
its block and the number of calls behind it in the block, and the addresses at which the function
keeps what it has saved. -/
structure Environment where
  pops : BlockId → Nat → BitVec 16
  saveArea : BitVec 16 → Prop

/-- What holds outside of a block. -/
def Environment.setting (environment : Environment) (id : BlockId) : Setting where
  pops := environment.pops id
  saveArea := environment.saveArea

/-- The bytes of the layout from a point in a block to the end of the function. -/
def bytesAhead (blocks : List Block) (id : BlockId) (rest : List Instr) : Nat :=
  Instr.layoutSize rest + totalSize ((blocks.drop (id + 1)).map Block.size)

/-- A path from the entry has come to a block of the function with these instructions of the
block still ahead. A branch goes to the block that it names, or to the instruction that lies a
number of bytes behind it, or on to the next instruction. -/
inductive Reached (environment : Environment) (blocks : List Block) (start : Machine) :
    BlockId → List Instr → Machine → Prop
  | entry {block : Block} (first : blocks[0]? = some block) :
      Reached environment blocks start 0 block.instrs start
  | step {id : BlockId} {instr : Instr} {rest : List Instr} {before after : Machine}
      (reached : Reached environment blocks start id (instr :: rest) before)
      (goesOn : instr.isReturn = false)
      (effect : instr.Effect ((environment.setting id).before rest) before after) :
      Reached environment blocks start id rest after
  | branch {id target : BlockId} {instr : Instr} {rest : List Instr} {before after : Machine}
      {block : Block} (reached : Reached environment blocks start id (instr :: rest) before)
      (isBranch : instr.isBranch = true) (targets : instr.operands[0]? = some (.block target))
      (effect : instr.Effect ((environment.setting id).before rest) before after)
      (found : blocks[target]? = some block) :
      Reached environment blocks start target block.instrs after
  | skip {id target : BlockId} {instr : Instr} {rest remaining : List Instr}
      {before after : Machine} {block : Block} {distance : Int64}
      (reached : Reached environment blocks start id (instr :: rest) before)
      (isBranch : instr.isBranch = true) (skips : instr.operands[0]? = some (.immediate distance))
      (effect : instr.Effect ((environment.setting id).before rest) before after)
      (found : blocks[target]? = some block) (ahead : remaining <:+ block.instrs)
      (lands : (bytesAhead blocks id rest : Int) =
        distance.toInt + bytesAhead blocks target remaining) :
      Reached environment blocks start target remaining after
  | fallThrough {id : BlockId} {machine : Machine} {block : Block}
      (reached : Reached environment blocks start id [] machine)
      (next : blocks[id + 1]? = some block) :
      Reached environment blocks start (id + 1) block.instrs machine

theorem Reached.nonempty {environment : Environment} {blocks : List Block}
    {start machine : Machine} {id : BlockId} {rest : List Instr}
    (reached : Reached environment blocks start id rest machine) : blocks ≠ [] := by
  rintro rfl
  induction reached with
  | entry first => contradiction
  | step _ _ _ ih => exact ih
  | branch _ _ _ _ _ ih => exact ih
  | skip _ _ _ _ _ _ _ ih => exact ih
  | fallThrough _ _ ih => exact ih

/-- Instructions run one after the other pass their checks, and an assertion holds behind them. -/
def Safe (setting : Setting) (check : Instr → Machine → Prop) (outcome : Machine → Prop) :
    List Instr → Machine → Prop
  | [], machine => outcome machine
  | instr :: rest, machine =>
      check instr machine ∧ (instr.isReturn = false →
        ∀ next, instr.Effect (setting.before rest) machine next →
          Safe setting check outcome rest next)

namespace Safe

variable {setting : Setting} {check : Instr → Machine → Prop}

theorem mono {weaker stronger : Machine → Prop} (implies : ∀ machine, stronger machine →
    weaker machine) {instrs : List Instr} {machine : Machine}
    (safe : Safe setting check stronger instrs machine) :
    Safe setting check weaker instrs machine := by
  induction instrs generalizing machine with
  | nil => exact implies machine safe
  | cons instr rest ih =>
      refine ⟨safe.1, ?_⟩
      intro goesOn next effect
      exact ih (safe.2 goesOn next effect)

theorem append {middle outcome : Machine → Prop} {left right : List Instr} {machine : Machine}
    (leftSafe : Safe (setting.before right) check middle left machine)
    (rightSafe : ∀ between, middle between → Safe setting check outcome right between) :
    Safe setting check outcome (left ++ right) machine := by
  induction left generalizing machine with
  | nil => exact rightSafe machine leftSafe
  | cons instr rest ih =>
      rw [List.cons_append]
      refine ⟨leftSafe.1, ?_⟩
      intro goesOn next effect
      rw [setting.before_append] at effect
      exact ih (leftSafe.2 goesOn next effect)

/-- Code whose checks never fail is safe, wherever it leads. -/
theorem of_forall {instrs : List Instr} (machine : Machine)
    (checked : ∀ instr ∈ instrs, ∀ state, check instr state) :
    Safe setting check (fun _ => True) instrs machine := by
  induction instrs generalizing machine with
  | nil => trivial
  | cons instr rest ih =>
      rw [List.forall_mem_cons] at checked
      exact ⟨checked.1 machine, fun _ next _ => ih next checked.2⟩

theorem single {outcome : Machine → Prop} {instr : Instr} {machine : Machine}
    (checked : check instr machine)
    (holds : ∀ next, instr.Effect setting machine next → outcome next) :
    Safe setting check outcome [instr] machine :=
  ⟨checked, fun _ => holds⟩

end Safe

/-- Blocks are safe between two points at which an invariant holds, and the entry block is safe
from the start on. Branches keep the invariant, go to other blocks than the entry and do not skip
bytes. -/
structure SafeBlocks (environment : Environment) (blocks : List Block) (start : Machine)
    (check : Instr → Machine → Prop) (invariant : Machine → Prop) : Prop where
  entry : ∀ block, blocks[0]? = some block →
    Safe (environment.setting 0) check invariant block.instrs start
  block : ∀ id block, id ≠ 0 → blocks[id]? = some block → ∀ before, invariant before →
    Safe (environment.setting id) check invariant block.instrs before
  branch : ∀ instr target pops before after, check instr before → instr.isBranch = true →
    instr.operands[0]? = some (.block target) →
      instr.Effect { pops, saveArea := environment.saveArea } before after →
        target ≠ 0 ∧ invariant after
  skip : ∀ instr machine, check instr machine → instr.isSkip = false

theorem Instr.isSkip_of_immediate {instr : Instr} {distance : Int64}
    (isBranch : instr.isBranch = true)
    (skips : instr.operands[0]? = some (.immediate distance)) : instr.isSkip = true := by
  rw [Instr.isSkip, isBranch, skips]
  rfl

section

variable {environment : Environment} {blocks : List Block} {start machine : Machine}
  {check : Instr → Machine → Prop} {invariant : Machine → Prop} {id : BlockId} {rest : List Instr}

/-- The rule for functions: whatever a path still has ahead in its block is safe. -/
theorem Reached.safe (safeBlocks : SafeBlocks environment blocks start check invariant)
    (reached : Reached environment blocks start id rest machine) :
    Safe (environment.setting id) check invariant rest machine := by
  induction reached with
  | entry first => exact safeBlocks.entry _ first
  | step reached goesOn effect ih => exact ih.2 goesOn _ effect
  | branch reached isBranch targets effect found ih =>
      obtain ⟨notEntry, holds⟩ := safeBlocks.branch _ _ _ _ _ ih.1 isBranch targets effect
      exact safeBlocks.block _ _ notEntry found _ holds
  | skip reached isBranch skips effect found ahead lands ih =>
      cases (safeBlocks.skip _ _ ih.1).symm.trans (Instr.isSkip_of_immediate isBranch skips)
  | fallThrough reached next ih => exact safeBlocks.block _ _ (Nat.succ_ne_zero _) next _ ih

end

/-- Straight code has run to its end. -/
inductive Ran (setting : Setting) : List Instr → Machine → Machine → Prop
  | nil {machine : Machine} : Ran setting [] machine machine
  | cons {instr : Instr} {rest : List Instr} {before middle after : Machine}
      (goesOn : instr.isReturn = false)
      (effect : instr.Effect (setting.before rest) before middle)
      (ran : Ran setting rest middle after) : Ran setting (instr :: rest) before after

namespace Ran

variable {setting : Setting}

theorem concat {instrs : List Instr} {instr : Instr} {before middle after : Machine}
    (ran : Ran (setting.before [instr]) instrs before middle) (goesOn : instr.isReturn = false)
    (effect : instr.Effect setting middle after) :
    Ran setting (instrs ++ [instr]) before after := by
  induction ran with
  | nil => exact .cons goesOn effect .nil
  | cons firstGoesOn firstEffect _ ih =>
      rw [← setting.before_append] at firstEffect
      exact .cons firstGoesOn firstEffect (ih effect)

theorem outcome {check : Instr → Machine → Prop} {outcome : Machine → Prop} {instrs : List Instr}
    {before after : Machine} (ran : Ran setting instrs before after)
    (safe : Safe setting check outcome instrs before) : outcome after := by
  induction ran with
  | nil => exact safe
  | cons goesOn effect _ ih => exact ih (safe.2 goesOn _ effect)

end Ran

/-- Where a path has come to, straight code has run from the start of the block. There the
invariant held, except in the entry block, which only the entry leads to. -/
theorem Reached.exists_boundary {environment : Environment} {blocks : List Block}
    {start machine : Machine} {check : Instr → Machine → Prop} {invariant : Machine → Prop}
    {id : BlockId} {rest : List Instr}
    (safeBlocks : SafeBlocks environment blocks start check invariant)
    (reached : Reached environment blocks start id rest machine) :
    ∃ block passed boundary, blocks[id]? = some block ∧ block.instrs = passed ++ rest ∧
      (if id = 0 then boundary = start else invariant boundary) ∧
      Ran ((environment.setting id).before rest) passed boundary machine := by
  induction reached with
  | entry first => exact ⟨_, [], _, first, rfl, rfl, .nil⟩
  | @step id instr rest before after reached goesOn effect ih =>
      obtain ⟨block, passed, boundary, found, instrsEq, holds, ran⟩ := ih
      rw [← List.singleton_append, Setting.before_append] at ran
      refine ⟨block, passed ++ [instr], boundary, found, ?_, holds, ran.concat goesOn effect⟩
      rw [instrsEq, List.append_assoc, List.singleton_append]
  | branch reached isBranch targets effect found ih =>
      have safe := reached.safe safeBlocks
      obtain ⟨notEntry, holds⟩ := safeBlocks.branch _ _ _ _ _ safe.1 isBranch targets effect
      refine ⟨_, [], _, found, rfl, ?_, .nil⟩
      rwa [if_neg notEntry]
  | skip reached isBranch skips effect found ahead lands ih =>
      have safe := reached.safe safeBlocks
      cases (safeBlocks.skip _ _ safe.1).symm.trans (Instr.isSkip_of_immediate isBranch skips)
  | fallThrough reached next ih =>
      refine ⟨_, [], _, next, rfl, ?_, .nil⟩
      rw [if_neg (Nat.succ_ne_zero _)]
      exact reached.safe safeBlocks

end MachineCode
