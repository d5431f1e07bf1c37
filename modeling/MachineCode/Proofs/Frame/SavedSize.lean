import MachineCode.Proofs.Frame.Outline

/-!
# The recorded size of the saved registers

The prologue and the epilogues take the size of the area for the preserved registers from a record
that only a save writes. A save writes it before it looks for its block. So the record does not tell
what has been pushed: it tells how many registers the latest save was asked for, whether or not it
found its block (`recordsSaved_iff`).
-/

namespace MachineCode

/-! ## What the calls of a run save -/

/-- The calls of a run, each with the function that it meets. -/
def Function.history (function : Function) : List HookCall → List (Function × HookCall)
  | [] => []
  | call :: rest => (function, call) :: (call.leaves function).history rest

namespace HookCall

/-- The registers that a call saves in a function: those of a save that succeeds and reports that
there was something to save. -/
def saved? (call : HookCall) (function : Function) : Option (List Register) :=
  match call.hook with
  | .save id index registers =>
      match (saveRegisters id index registers).run function with
      | .ok true _ => some registers
      | _ => none
  | _ => none

/-- A call that inserts instructions into a block, if the block is there, does so inside of it. -/
def InsertsInside (call : HookCall) (function : Function) : Prop :=
  match call.hook with
  | .save id index _ | .restore id index _ =>
      ∀ block, function.block? id = some block → index ≤ block.instrs.length
  | _ => True

/-- The block and the registers of a call that is asked to save registers. -/
def request? (call : HookCall) : Option (BlockId × List Register) :=
  match call.hook with
  | .save id _ registers => if registers.isEmpty then none else some (id, registers)
  | _ => none

end HookCall

/-- The registers that a run saves, save by save. -/
def Function.savedLists (function : Function) (calls : List HookCall) : List (List Register) :=
  (function.history calls).filterMap fun visit => visit.2.saved? visit.1

/-- The registers that a run saves last. -/
def Function.latestSaved (function : Function) (calls : List HookCall) : List Register :=
  (function.savedLists calls).getLast?.getD []

/-- What a run is asked to save, request by request. -/
def requests (calls : List HookCall) : List (BlockId × List Register) :=
  calls.filterMap HookCall.request?

/-- After a run, the record is the size of the registers that were saved last. -/
def Function.RecordsSaved (function : Function) (calls : List HookCall) : Prop :=
  (function.after calls).calleeSavedSize =
    2 * UInt64.ofNat (function.latestSaved calls).length

instance decidableRecordsSaved (function : Function) (calls : List HookCall) :
    Decidable (function.RecordsSaved calls) :=
  inferInstanceAs (Decidable (_ = _))

/-! ## One call -/

theorem savedSize_eq (registers : List Register) :
    savedSize registers = 2 * UInt64.ofNat registers.length := by
  rw [savedSize, UInt64.mul_comm]
  rfl

/-- Only saves write the record. -/
theorem isStable_calleeSavedSize (size : UInt64) :
    IsStable fun function => function.calleeSavedSize = size where
  decided _ recorded := recorded
  withBlocks _ recorded := recorded
  withFlags _ _ _ recorded := recorded
  withFixedObjects _ recorded := recorded

namespace HookCall

theorem leaves_save (options : Options) (id : BlockId) (index : Nat) (registers : List Register)
    (function : Function) :
    leaves { options, hook := .save id index registers } function =
      (saveRegisters id index registers).leaves function :=
  Pass.leaves_discard _ function

/-- A request is recorded, whether or not its registers can be saved. No other call touches the
record. -/
theorem calleeSavedSize_leaves (call : HookCall) (function : Function) :
    (call.leaves function).calleeSavedSize =
      (call.request?.map fun request => 2 * UInt64.ofNat request.2.length).getD
        function.calleeSavedSize := by
  obtain ⟨options, hook⟩ := call
  by_cases isSave : ∃ id index registers, hook = .save id index registers
  · obtain ⟨id, index, registers, rfl⟩ := isSave
    rw [leaves_save, request?]
    rcases saveRegisters_outcome id index registers function with
      ⟨rfl, ran⟩ | ⟨nonempty, ⟨-, reason, stopped⟩ | ⟨block, -, -, ran⟩⟩
    · rw [Pass.leaves_of_ok ran]
      rfl
    · rw [Pass.leaves_of_error stopped, savedSize_eq]
      simp [nonempty]
    · rw [Pass.leaves_of_ok ran, Function.modifyBlock, Function.modifyBlock, savedSize_eq]
      simp [nonempty]
  · have noRequest : request? { options, hook } = none := by
      cases hook with
      | save id index registers => exact absurd ⟨id, index, registers, rfl⟩ isSave
      | _ => rfl
    rw [noRequest]
    exact (isStable_calleeSavedSize function.calleeSavedSize).hook options hook
      (fun id index registers save => absurd ⟨id, index, registers, save⟩ isSave) function rfl

/-- A request is met if its block is there. -/
theorem saved?_eq {call : HookCall} {function : Function} (inside : call.InsertsInside function) :
    call.saved? function =
      (call.request?.filter fun request => request.1 < function.blocks.length).map Prod.snd := by
  obtain ⟨options, hook⟩ := call
  cases hook with
  | save id index registers =>
      rw [saved?, request?]
      rcases saveRegisters_outcome id index registers function with
        ⟨rfl, ran⟩ | ⟨nonempty, ⟨outside, reason, stopped⟩ | ⟨block, found, -, ran⟩⟩
      · simp [ran]
      · have missing : function.blocks.length ≤ id := by
          rw [← List.getElem?_eq_none_iff]
          cases found : function.block? id with
          | none => exact found
          | some block => exact absurd (outside block found) (Nat.not_lt.mpr (inside block found))
        simp [stopped, nonempty, Option.filter, missing]
      · have present : id < function.blocks.length := (List.getElem?_eq_some_iff.mp found).1
        simp [ran, nonempty, Option.filter, present]
  | _ => rfl

theorem length_blocks_leaves (call : HookCall) (function : Function) :
    (call.leaves function).blocks.length = function.blocks.length := by
  have outline : KeepsOutline function (call.leaves function) :=
    call.hook.preserves_outline call.options function (.refl function)
  simpa using congrArg List.length outline.names

end HookCall

/-! ## Runs -/

theorem requests_cons (call : HookCall) (rest : List HookCall) :
    requests (call :: rest) = call.request?.toList ++ requests rest := by
  rw [requests, List.filterMap_cons]
  cases call.request? <;> rfl

theorem Function.savedLists_cons (function : Function) (call : HookCall) (rest : List HookCall) :
    function.savedLists (call :: rest) =
      (call.saved? function).toList ++ (call.leaves function).savedLists rest := by
  rw [Function.savedLists, Function.history, List.filterMap_cons]
  cases call.saved? function <;> rfl

/-- A run saves what it is asked to save in blocks that are there. -/
theorem Function.savedLists_eq {function : Function} {calls : List HookCall}
    (inside : ∀ visit ∈ function.history calls, visit.2.InsertsInside visit.1) :
    function.savedLists calls =
      ((requests calls).filter fun request => request.1 < function.blocks.length).map
        Prod.snd := by
  induction calls generalizing function with
  | nil => rfl
  | cons call rest ih =>
      rw [Function.history, List.forall_mem_cons] at inside
      have later := ih inside.2
      rw [HookCall.length_blocks_leaves] at later
      rw [Function.savedLists_cons, later, HookCall.saved?_eq inside.1, requests_cons,
        List.filter_append, List.map_append]
      congr 1
      cases call.request? with
      | none => rfl
      | some request =>
          by_cases there : request.1 < function.blocks.length <;> simp [Option.filter, there]

/-- After a run, the record is the size of the registers that were requested last. -/
theorem Function.calleeSavedSize_after (function : Function) (calls : List HookCall) :
    (function.after calls).calleeSavedSize =
      ((requests calls).getLast?.map fun request => 2 * UInt64.ofNat request.2.length).getD
        function.calleeSavedSize := by
  induction calls generalizing function with
  | nil => rfl
  | cons call rest ih =>
      rw [Function.after_cons, ih, HookCall.calleeSavedSize_leaves, requests_cons,
        List.getLast?_append]
      cases (requests rest).getLast? with
      | some latest => rfl
      | none => cases call.request? <;> rfl

/-- The record is always the size of the registers that were requested last. So it is the size of
the registers that were saved last exactly if the latest request met its block, or missed it but
asked for as many registers as had been saved before. -/
theorem recordsSaved_iff {function : Function} {calls : List HookCall}
    (initially : function.calleeSavedSize = 0)
    (inside : ∀ visit ∈ function.history calls, visit.2.InsertsInside visit.1) :
    (function.after calls).calleeSavedSize =
        2 * UInt64.ofNat (((requests calls).getLast?.map Prod.snd).getD []).length ∧
      (function.RecordsSaved calls ↔
        ∀ id registers, (requests calls).getLast? = some (id, registers) →
          id < function.blocks.length ∨
            2 * UInt64.ofNat registers.length =
              2 * UInt64.ofNat (function.latestSaved calls).length) := by
  have recorded := function.calleeSavedSize_after calls
  have saved := Function.savedLists_eq inside
  rw [Function.RecordsSaved, recorded, initially]
  cases latest : (requests calls).getLast? with
  | none =>
      have nothingSaved : function.latestSaved calls = [] := by
        rw [Function.latestSaved, saved, List.getLast?_eq_none_iff.mp latest]
        rfl
      simp [nothingSaved]
  | some request =>
      obtain ⟨id, registers⟩ := request
      have met (there : id < function.blocks.length) :
          function.latestSaved calls = registers := by
        obtain ⟨earlier, split⟩ := List.getLast?_eq_some_iff.mp latest
        rw [Function.latestSaved, saved, split]
        simp [there]
      refine ⟨rfl, fun same id' registers' => ?_, fun each => ?_⟩
      · rintro ⟨⟩
        exact .inr same
      · rcases each id registers rfl with there | same
        · rw [met there]
          rfl
        · exact same

/-- A function with a single block. -/
def overwritten : Function where
  name := "overwritten"
  frame := { stackSize := 8 }
  blocks := [{ name := "start", instrs := [{ opcode := .ret }] }]

/-- Two registers are saved in the block above, and one in a block that is not there. -/
def overwritingCalls : List HookCall :=
  [{ hook := .save 0 0 [.r12, .r13] }, { hook := .save 3 0 [.r14] }]

theorem insertsInside_overwritingCalls :
    ∀ visit ∈ overwritten.history overwritingCalls, visit.2.InsertsInside visit.1 := by
  intro visit member
  rcases List.mem_cons.mp member with rfl | member
  · exact fun block _ => Nat.zero_le _
  · rw [List.mem_singleton.mp member]
    exact fun block _ => Nat.zero_le _

theorem recordsSaved_iff_overwritten :
    overwritten.calleeSavedSize = 0 ∧
      (∀ visit ∈ overwritten.history overwritingCalls, visit.2.InsertsInside visit.1) ∧
      (overwritten.after overwritingCalls).calleeSavedSize = 2 ∧
      ¬overwritten.RecordsSaved overwritingCalls := by
  obtain ⟨recorded, records_iff⟩ := recordsSaved_iff rfl insertsInside_overwritingCalls
  refine ⟨rfl, insertsInside_overwritingCalls, recorded, fun records => ?_⟩
  have missedOrSame := records_iff.mp records 3 _ rfl
  revert missedOrSame
  decide +kernel

/-- A save that fails overwrites the record of the one that succeeded: four bytes have been pushed
and two are recorded, so the prologue allocates six bytes where four are left. -/
theorem not_recordsSaved_overwritten :
    overwritten.calleeSavedSize = 0 ∧
      (∀ visit ∈ overwritten.history overwritingCalls, visit.2.InsertsInside visit.1) ∧
      ¬overwritten.RecordsSaved overwritingCalls ∧
      ((overwritten.after (overwritingCalls ++ [{ hook := .prologue 0 }])).block? 0).map
          Block.instrs =
        some [.push .r13, .push .r12, .lowerStack 6, { opcode := .ret }] :=
  ⟨rfl, insertsInside_overwritingCalls, by decide +kernel, by decide +kernel⟩

end MachineCode
