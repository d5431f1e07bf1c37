import MachineCode.Proofs.Frame.Machine
import MachineCode.Proofs.Frame.Shape

/-!
# Saving and restoring registers

`Saves` and `Restores` say what runs of pushes and pops do. `Framed` describes the frame of a
running function: the caller's frame pointer and the preserved registers lie in the save area and
the frame pointer has its place. Entry code builds this frame from any state, and exit code takes
it down and leaves the state that the caller expects.
-/

namespace MachineCode

namespace Machine

theorem load_store_self (machine : Machine) (address value : BitVec 16) :
    (machine.store address value).load address = value := by
  have different : address ≠ address + 1 := by bv_omega
  simp only [load, store, Function.update_self, Function.update_of_ne different]
  ext index inBounds
  rw [BitVec.getElem_append]
  split
  next low =>
    rw [BitVec.getElem_setWidth]
    exact BitVec.getLsbD_eq_getElem inBounds
  next high =>
    rw [BitVec.getElem_extractLsb', Nat.add_sub_of_le (Nat.le_of_not_lt high)]
    rfl

theorem memory_store_of_ne (machine : Machine) {address other : BitVec 16} (value : BitVec 16)
    (notLow : other ≠ address) (notHigh : other ≠ address + 1) :
    (machine.store address value).memory other = machine.memory other := by
  simp only [store, Function.update_of_ne notHigh, Function.update_of_ne notLow]

end Machine

/-- Registers lie one after the other in the memory from an address on. -/
def SavedAt (machine : Machine) (value : Fin 16 → BitVec 16) : BitVec 16 → List Register → Prop
  | _, [] => True
  | address, register :: rest =>
      machine.load address = value register.number ∧ SavedAt machine value (address + 2) rest

namespace SavedAt

/-- Saved registers stay saved while their words keep their bytes. -/
theorem of_same_memory {before after : Machine} {value : Fin 16 → BitVec 16}
    {address : BitVec 16} {registers : List Register}
    (fits : 2 * registers.length < 65536)
    (same : ∀ other, (other - address).toNat < 2 * registers.length →
      after.memory other = before.memory other)
    (saved : SavedAt before value address registers) : SavedAt after value address registers := by
  induction registers generalizing address with
  | nil => trivial
  | cons register rest ih =>
      rw [List.length_cons] at fits same
      constructor
      · rw [← saved.1, Machine.load, Machine.load, same address (by bv_omega),
          same (address + 1) (by bv_omega)]
      · apply ih
        · omega
        · intro other inRest
          exact same other (by bv_omega)
        · exact saved.2

theorem of_memory_eq {before after : Machine} {value : Fin 16 → BitVec 16} {address : BitVec 16}
    {registers : List Register} (same : after.memory = before.memory)
    (saved : SavedAt before value address registers) : SavedAt after value address registers := by
  induction registers generalizing address with
  | nil => trivial
  | cons register rest ih =>
      refine ⟨?_, ih saved.2⟩
      rw [← saved.1, Machine.load, Machine.load, same]

theorem congr_value {machine : Machine} {value other : Fin 16 → BitVec 16}
    {address : BitVec 16} {registers : List Register}
    (same : ∀ register ∈ registers, other register.number = value register.number)
    (saved : SavedAt machine value address registers) :
    SavedAt machine other address registers := by
  induction registers generalizing address with
  | nil => trivial
  | cons register rest ih =>
      rw [List.forall_mem_cons] at same
      exact ⟨saved.1.trans same.1.symm, ih same.2 saved.2⟩

end SavedAt

/-- The given number of bytes below the stack pointer. -/
def bytesBelow (sp : BitVec 16) (bytes : Nat) (address : BitVec 16) : Prop :=
  0 < (sp - address).toNat ∧ (sp - address).toNat ≤ bytes

/-- Registers have been pushed, the last one of the list first. -/
structure Saves (registers : List Register) (before after : Machine) : Prop where
  sp : after.sp = before.sp - BitVec.ofNat 16 (2 * registers.length)
  unchanged : ∀ number, number ≠ Register.sp.number →
    after.registers number = before.registers number
  saved : SavedAt after before.registers after.sp registers
  elsewhere : ∀ address, ¬bytesBelow before.sp (2 * registers.length) address →
    after.memory address = before.memory address

theorem Saves.refl (machine : Machine) : Saves [] machine machine where
  sp := (BitVec.sub_zero _).symm
  unchanged _ _ := rfl
  saved := trivial
  elsewhere _ _ := rfl

theorem Saves.push {register : Register} {rest : List Register} {before middle : Machine}
    (saves : Saves rest before middle) (fits : 2 * (register :: rest).length < 65536)
    (noStackPointer : register.number ≠ Register.sp.number) :
    Saves (register :: rest) before (middle.push register.number) := by
  have spEq : (middle.push register.number).sp = middle.sp - 2 :=
    Machine.registers_set_self _ _ _
  have nextEq : middle.sp - 2 + 2 = middle.sp := by bv_omega
  have middleEq := saves.sp
  rw [List.length_cons] at fits
  have sameMemory (other : BitVec 16) (elsewhere : (other - middle.sp).toNat < 65534) :
      (middle.push register.number).memory other = middle.memory other := by
    apply Machine.memory_store_of_ne
    · rintro rfl
      bv_omega
    · rintro rfl
      bv_omega
  refine ⟨?_, ?_, ⟨?_, ?_⟩, ?_⟩
  · rw [spEq, middleEq, List.length_cons]
    bv_omega
  · intro number notStackPointer
    rw [← saves.unchanged number notStackPointer]
    exact Machine.registers_set_of_ne _ _ notStackPointer
  · rw [spEq, ← saves.unchanged register.number noStackPointer]
    exact Machine.load_store_self middle _ _
  · rw [spEq, nextEq]
    apply saves.saved.of_same_memory
    · omega
    · intro other saved
      exact sameMemory other (by omega)
  · intro address elsewhere
    rw [bytesBelow, List.length_cons] at elsewhere
    rw [sameMemory address (by bv_omega), saves.elsewhere address (by rw [bytesBelow]; omega)]

/-- Registers have been popped, the first one of the list first. -/
structure Restores (registers : List Register) (value : Fin 16 → BitVec 16)
    (before after : Machine) : Prop where
  sp : after.sp = before.sp + BitVec.ofNat 16 (2 * registers.length)
  restored : ∀ register ∈ registers, after.registers register.number = value register.number
  unchanged : ∀ number, number ≠ Register.sp.number →
    (∀ register ∈ registers, register.number ≠ number) →
      after.registers number = before.registers number
  memory : after.memory = before.memory

/-- A register that has the saved value already has it whether it is restored or not. -/
theorem Restores.eq_value {registers : List Register} {value : Fin 16 → BitVec 16}
    {before after : Machine} {number : Fin 16} (restores : Restores registers value before after)
    (noStackPointer : number ≠ Register.sp.number)
    (already : before.registers number = value number) :
    after.registers number = value number := by
  by_cases listed : ∃ register ∈ registers, register.number = number
  · obtain ⟨register, member, rfl⟩ := listed
    exact restores.restored register member
  · push Not at listed
    rw [restores.unchanged number noStackPointer listed, already]

theorem Machine.sp_pop {number : Fin 16} (noStackPointer : number ≠ Register.sp.number)
    (machine : Machine) : (machine.pop number).sp = machine.sp + 2 :=
  (Machine.registers_set_of_ne _ _ noStackPointer.symm).trans (Machine.registers_set_self _ _ _)

theorem Restores.pop {register : Register} {rest : List Register} {value : Fin 16 → BitVec 16}
    {before after : Machine} (noStackPointer : register.number ≠ Register.sp.number)
    (loaded : before.load before.sp = value register.number)
    (restores : Restores rest value (before.pop register.number) after) :
    Restores (register :: rest) value before after := by
  refine ⟨?_, ?_, ?_, restores.memory⟩
  · rw [restores.sp, Machine.sp_pop noStackPointer, List.length_cons, BitVec.add_assoc]
    congr 1
    rw [Nat.mul_add, Nat.add_comm, BitVec.ofNat_add]
    rfl
  · intro other member
    rcases List.mem_cons.mp member with rfl | inRest
    · apply restores.eq_value noStackPointer
      exact (Machine.registers_set_self _ _ _).trans loaded
    · exact restores.restored other inRest
  · intro number notStackPointer notRestored
    rw [List.forall_mem_cons] at notRestored
    rw [restores.unchanged number notStackPointer notRestored.2]
    exact (Machine.registers_set_of_ne _ _ notRestored.1.symm).trans
      (Machine.registers_set_of_ne _ _ notStackPointer)

section

variable {setting : Setting} {check : Instr → Machine → Prop}
  (unchecked : ∀ instr machine, instr.isTerminator = false → check instr machine)

include unchecked

theorem safe_saveInstrs {registers : List Register} (machine : Machine)
    (fits : 2 * registers.length < 65536)
    (words : ∀ register ∈ registers, register.width = .word)
    (noStackPointer : ∀ register ∈ registers, register.number ≠ Register.sp.number) :
    Safe setting check (Saves registers machine) (saveInstrs registers) machine := by
  induction registers generalizing setting with
  | nil => exact .refl machine
  | cons register rest ih =>
      rw [List.forall_mem_cons] at words noStackPointer
      rw [saveInstrs, List.reverse_cons, List.map_append]
      apply (ih (Nat.lt_trans (by simp) fits) words.2 noStackPointer.2).append
      intro between saves
      apply Safe.single (unchecked _ _ rfl)
      intro next effect
      obtain rfl := (effect_push words.1).mp effect
      exact saves.push fits noStackPointer.1

theorem safe_restoreInstrs {registers : List Register} {value : Fin 16 → BitVec 16}
    {machine : Machine} (words : ∀ register ∈ registers, register.width = .word)
    (noStackPointer : ∀ register ∈ registers, register.number ≠ Register.sp.number)
    (saved : SavedAt machine value machine.sp registers) :
    Safe setting check (Restores registers value machine) (restoreInstrs registers) machine := by
  induction registers generalizing machine with
  | nil =>
      exact { sp := by simp, restored := by simp, unchanged := fun _ _ _ => rfl, memory := rfl }
  | cons register rest ih =>
      rw [List.forall_mem_cons] at words noStackPointer
      refine ⟨unchecked _ _ rfl, ?_⟩
      intro _ next effect
      obtain rfl := (effect_pop words.1).mp effect
      have savedRest :
          SavedAt (machine.pop register.number) value (machine.pop register.number).sp rest := by
        have sameMemory : (machine.pop register.number).memory = machine.memory := rfl
        rw [Machine.sp_pop noStackPointer.1]
        exact saved.2.of_memory_eq sameMemory
      apply (ih words.2 noStackPointer.2 savedRest).mono
      intro after restores
      exact restores.pop noStackPointer.1 saved.1

end

/-! ## The frame -/

/-- The bytes in which a function keeps what it has saved. -/
def saveBytes (keeps : Bool) (registers : List Register) : Nat :=
  2 * registers.length + if keeps then 2 else 0

/-- The registers on entry, with the frame pointer that the body has. -/
def bodyRegisters (entry : Machine) (keeps : Bool) : Fin 16 → BitVec 16 :=
  if keeps then (entry.set Register.fp.number (entry.sp - 2)).registers else entry.registers

/-- The stack pointer below what a function has saved. -/
def savedTop (entry : Machine) (keeps : Bool) (registers : List Register) : BitVec 16 :=
  entry.sp - BitVec.ofNat 16 (saveBytes keeps registers)

/-- The frame of a function stands: what has been saved lies in its place, and the frame pointer
is the body's. -/
structure Framed (entry : Machine) (keeps : Bool) (registers : List Register)
    (machine : Machine) : Prop where
  fits : saveBytes keeps registers < 65536
  framePointer : keeps = true → machine.load (entry.sp - 2) = entry.fp
  saved : SavedAt machine (bodyRegisters entry keeps) (savedTop entry keeps registers) registers
  fp : machine.fp = bodyRegisters entry keeps Register.fp.number

/-- A frame stands as long as the save area keeps its bytes and the frame pointer its value. -/
theorem Framed.of_unchanged {entry before after : Machine} {keeps : Bool}
    {registers : List Register} (framed : Framed entry keeps registers before)
    (same : ∀ address, bytesBelow entry.sp (saveBytes keeps registers) address →
      after.memory address = before.memory address)
    (sameFp : after.fp = before.fp) : Framed entry keeps registers after := by
  have fits := framed.fits
  have size : saveBytes keeps registers = 2 * registers.length + if keeps then 2 else 0 := rfl
  refine ⟨fits, ?_, ?_, sameFp.trans framed.fp⟩
  · rintro rfl
    rw [if_pos rfl] at size
    rw [← framed.framePointer rfl, Machine.load, Machine.load,
      same (entry.sp - 2) ⟨by bv_omega, by bv_omega⟩,
      same (entry.sp - 2 + 1) ⟨by bv_omega, by bv_omega⟩]
  · apply framed.saved.of_same_memory
    · omega
    · intro address saved
      rw [savedTop] at saved
      exact same address ⟨by bv_omega, by bv_omega⟩

end MachineCode
