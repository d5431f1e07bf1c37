import MachineCode.Proofs.Editing
import MachineCode.Proofs.Sweep

/-!
# Walks and sweeps

A walk goes through a block by position, and its steps edit the block while it goes on. A sweep
replaces the items of a list one after the other and knows no positions. When each step of a walk
does what a step of a sweep does, the walk ends as the sweep ends: it leaves the same instructions
and gives the same result, it visits every instruction once, and it neither leaves the block nor
runs out of steps (`run_walk`). The same is shown for a visit to all blocks (`run_visitBlocks`).
-/

namespace MachineCode

theorem totalSize_map_eq_length {item : Type} {size : item → Nat} {items : List item}
    (each : ∀ head ∈ items, size head = 1) : totalSize (items.map size) = items.length := by
  induction items with
  | nil => rfl
  | cons head rest ih =>
      rw [List.forall_mem_cons] at each
      rw [List.map_cons, totalSize_cons, each.1, ih each.2, List.length_cons, Nat.add_comm]

namespace Pass

variable {result state : Type}

/-! ## Walking through a block -/

/-- The steps of a walk through a block follow the steps of a sweep. The instructions before the
position are finished and those behind it remain. A step may leave instructions in front of the
walk, which it then meets and leaves alone; they cost less than the one that they come from. -/
structure Follows (function : Function) (id : BlockId)
    (step : Nat → Instr → state → Pass (Nat × state)) (sweep : state → Instr → Sweep Instr state)
    (cost : Instr → Nat) (valid : state → Prop) : Prop where
  stops : ∀ finished instr rest current items reason, valid current →
    sweep current instr = .stopped items reason →
    (step finished.length instr current).run
        (function.withInstrs id (finished ++ instr :: rest)) =
      .error reason (function.withInstrs id (finished ++ (items ++ rest)))
  advances : ∀ finished instr rest current items next, valid current →
    sweep current instr = .done items next →
    valid next ∧ ∃ visited ahead, items = visited ++ ahead ∧
      (∀ left ∈ ahead, sweep next left = .done [left] next) ∧
      totalSize (ahead.map cost) < cost instr ∧
      (step finished.length instr current).run
          (function.withInstrs id (finished ++ instr :: rest)) =
        .ok (finished.length + visited.length, next)
          (function.withInstrs id (finished ++ (items ++ rest)))

/-- A walk that follows a sweep and has steps enough ends as the sweep does. -/
theorem run_walk {function : Function} {id : BlockId} {block : Block}
    {step : Nat → Instr → state → Pass (Nat × state)} {sweep : state → Instr → Sweep Instr state}
    {cost : Instr → Nat} {valid : state → Prop} (found : function.block? id = some block)
    (follows : Follows function id step sweep cost valid) {limit : Nat} (finished : List Instr)
    {rest : List Instr} {current : state} (holds : valid current)
    (enough : totalSize (rest.map cost) < limit) :
    (walk id step limit finished.length current).run (function.withInstrs id (finished ++ rest)) =
      (ofExcept (Sweep.run sweep current rest).outcome).run
        (function.withInstrs id (finished ++ (Sweep.run sweep current rest).items)) := by
  induction limit generalizing finished rest current with
  | zero => exact absurd enough (Nat.not_lt_zero _)
  | succ limit ih =>
      rw [walk, run_bind_of_ok (run_block_withInstrs found _)]
      dsimp only
      cases rest with
      | nil =>
          rw [List.append_nil, List.getElem?_eq_none (Nat.le_refl _), Sweep.run_nil]
          exact congrArg _ (by rw [Sweep.done, List.append_nil])
      | cons instr rest =>
          rw [List.getElem?_append_right (Nat.le_refl _), Nat.sub_self, List.getElem?_cons_zero]
          dsimp only
          cases swept : sweep current instr with
          | mk items outcome =>
              cases outcome with
              | error reason =>
                  rw [Sweep.run_cons_error swept]
                  exact run_bind_of_error
                    (follows.stops finished instr rest current items reason holds swept) _
              | ok next =>
                  obtain ⟨reached, visited, ahead, rfl, inert, cheaper, stepped⟩ :=
                    follows.advances finished instr rest current items next holds swept
                  have remaining : totalSize ((ahead ++ rest).map cost) < limit := by
                    rw [List.map_cons, totalSize_cons] at enough
                    rw [List.map_append, totalSize_append]
                    omega
                  have later := ih (finished ++ visited) reached remaining
                  rw [Sweep.run_append_of_inert inert] at later
                  rw [Sweep.run_cons_ok swept, run_bind_of_ok stepped]
                  simp only [Sweep.prepend, List.append_assoc, List.length_append] at later ⊢
                  exact later

/-- A walk through a whole block is a sweep over its instructions. -/
theorem run_walk_block {function : Function} {id : BlockId} {block : Block}
    {step : Nat → Instr → state → Pass (Nat × state)} {sweep : state → Instr → Sweep Instr state}
    {cost : Instr → Nat} {valid : state → Prop} (found : function.block? id = some block)
    (follows : Follows function id step sweep cost valid) (initial : state) (holds : valid initial)
    {limit : Nat} (enough : totalSize (block.instrs.map cost) < limit) :
    (walk id step limit 0 initial).run function =
      (ofExcept (Sweep.run sweep initial block.instrs).outcome).run
        (function.withInstrs id (Sweep.run sweep initial block.instrs).items) := by
  have walked := run_walk found follows [] holds enough
  rw [List.nil_append, Function.withInstrs_self found] at walked
  exact walked

/-! ## Visiting the blocks -/

/-- Sweep over the blocks, keeping what was replaced when the sweep stops. -/
def sweepBlocks (sweep : List Block → Sweep Block result) : Pass result := do
  let swept := sweep (← get).blocks
  modify fun function => { function with blocks := swept.items }
  ofExcept swept.outcome

theorem run_sweepBlocks (sweep : List Block → Sweep Block result) (function : Function) :
    (sweepBlocks sweep).run function =
      (ofExcept (sweep function.blocks).outcome).run
        { function with blocks := (sweep function.blocks).items } := rfl

theorem run_sweepBlocks_eq_ok {sweep : List Block → Sweep Block result}
    {function final : Function} {value : result}
    (succeeded : (sweepBlocks sweep).run function = .ok value final) :
    (sweep function.blocks).outcome = .ok value ∧
      final = { function with blocks := (sweep function.blocks).items } :=
  run_ofExcept_eq_ok succeeded

/-- The visits to the blocks of a function follow the steps of a sweep over them, which may also
keep track of the position. -/
structure VisitsFollow {tracked : Type} (function : Function)
    (visit : BlockId → state → Pass state) (sweep : tracked → Block → Sweep Block tracked)
    (track : BlockId → state → tracked) (untrack : tracked → state) (valid : state → Prop) :
    Prop where
  untrack_track : ∀ id current, untrack (track id current) = current
  each : ∀ front block rest current, valid current →
    (front ++ block :: rest).length = function.blocks.length →
    ∃ changed outcome,
      sweep (track front.length current) block =
        ⟨[changed], outcome.map (track (front.length + 1))⟩ ∧
      (∀ next, outcome = .ok next → valid next) ∧
      (visit front.length current).run { function with blocks := front ++ block :: rest } =
        (ofExcept outcome).run { function with blocks := front ++ changed :: rest }

section

variable {tracked : Type} {function : Function} {visit : BlockId → state → Pass state}
  {sweep : tracked → Block → Sweep Block tracked} {track : BlockId → state → tracked}
  {untrack : tracked → state} {valid : state → Prop}

theorem run_foldlM_visit
    (follows : VisitsFollow function visit sweep track untrack valid) (front rest : List Block)
    {current : state} (holds : valid current)
    (all : (front ++ rest).length = function.blocks.length) :
    ((List.range' front.length rest.length).foldlM (fun current id => visit id current)
        current).run { function with blocks := front ++ rest } =
      (ofExcept ((Sweep.run sweep (track front.length current) rest).outcome.map untrack)).run
        { function with
          blocks := front ++ (Sweep.run sweep (track front.length current) rest).items } := by
  induction rest generalizing front current with
  | nil => exact congrArg (EStateM.Result.ok · _) (follows.untrack_track ..).symm
  | cons block rest ih =>
      obtain ⟨changed, outcome, swept, kept, visited⟩ :=
        follows.each front block rest current holds all
      rw [List.length_cons, List.range'_succ, List.foldlM_cons]
      cases outcome with
      | error reason =>
          rw [Sweep.run_cons_error swept]
          exact run_bind_of_error visited _
      | ok next =>
          have later := ih (front ++ [changed]) (kept next rfl) (by simpa using all)
          rw [Sweep.run_cons_ok swept, run_bind_of_ok visited]
          simp only [Sweep.prepend, List.append_assoc, List.length_append] at later ⊢
          exact later

/-- A visit to all blocks that follows a sweep ends as the sweep does. -/
theorem run_visitBlocks (follows : VisitsFollow function visit sweep track untrack valid)
    (initial : state) (holds : valid initial) :
    (visitBlocks visit initial).run function =
      (sweepBlocks fun blocks =>
        { items := (Sweep.run sweep (track 0 initial) blocks).items
          outcome := (Sweep.run sweep (track 0 initial) blocks).outcome.map untrack }).run
        function := by
  have visited := run_foldlM_visit follows [] function.blocks holds rfl
  rw [List.length_nil, ← List.range_eq_range'] at visited
  exact visited

end

end Pass

end MachineCode
