import MachineCode.Proofs.Encoding.Reach
import Mathlib.Algebra.BigOperators.Group.List.Basic
import Mathlib.Algebra.GroupWithZero.Nat

/-!
# What a session counts

A session compiles functions one after the other. Its counters grow by the code of the functions
that are compiled (`CountsUp`). A function that fails, in whichever pass, has left its mark on
itself only: the counters are those from before. Whether a function is compiled does not depend on
the session, so the order of the functions does not matter for what the session has counted in the
end.
-/

namespace MachineCode

/-- A function that has been compiled: its code, and the function as the passes left it. -/
structure Product where
  code : CompiledFunction
  function : Function

/-- What a session has made of a function, if it has been compiled. -/
def Compilation.product? (compilation : Compilation) : Option Product :=
  match compilation.outcome with
  | .ok code => some { code, function := compilation.function }
  | .error _ => none

/-- What compilation makes of a function on its own, if it succeeds. -/
def Function.product? (options : Options) (function : Function) : Option Product :=
  match (compileFunction options).run function with
  | .ok code lowered => some { code, function := lowered }
  | .error _ _ => none

/-- What a session counts. -/
inductive Counter where
  | functions
  | instructions
  | bytes
  | fixups
  | expandedBranches
  | relaxationScans
  deriving DecidableEq, Repr

/-- How far a session has counted. -/
def Statistics.count (stats : Statistics) : Counter → Nat
  | .functions => stats.functionsCompiled
  | .instructions => stats.instructionsEncoded
  | .bytes => stats.bytesEmitted
  | .fixups => stats.fixupsRecorded
  | .expandedBranches => stats.branchesExpanded
  | .relaxationScans => stats.relaxationIterations

/-- What there is to count in a product. -/
def Product.amount (product : Product) : Counter → Nat
  | .functions => 1
  | .instructions => product.function.instructionCount
  | .bytes => product.code.bytes.length
  | .fixups => product.code.fixups.length
  | .expandedBranches => product.code.relaxation.expanded
  | .relaxationScans => product.code.relaxation.iterations

theorem Statistics.ext_count {stats other : Statistics}
    (same : ∀ counter, stats.count counter = other.count counter) : stats = other := by
  cases stats
  cases other
  rw [Statistics.mk.injEq]
  exact ⟨same .functions, same .instructions, same .bytes, same .fixups, same .expandedBranches,
    same .relaxationScans⟩

/-- Every counter of a session has grown by what there is to count in some products. -/
def CountsUp (start : Statistics) (products : List Product) (finish : Statistics) : Prop :=
  ∀ counter, finish.count counter =
    start.count counter + (products.map fun product => product.amount counter).sum

namespace CountsUp

variable {start middle finish other : Statistics} {products reordered : List Product}

theorem nil (stats : Statistics) : CountsUp stats [] stats := by
  intro counter
  rfl

theorem append {more : List Product} (first : CountsUp start products middle)
    (second : CountsUp middle more finish) : CountsUp start (products ++ more) finish := by
  intro counter
  rw [second counter, first counter, List.map_append, List.sum_append, Nat.add_assoc]

/-- The order of the products does not matter. -/
theorem perm (counts : CountsUp start products finish) (order : products.Perm reordered) :
    CountsUp start reordered finish := by
  intro counter
  rw [counts counter, (order.map _).sum_eq]

/-- Nothing but the products decides where the counters end. -/
theorem unique (counts : CountsUp start products finish)
    (others : CountsUp start products other) : finish = other := by
  apply Statistics.ext_count
  intro counter
  rw [counts counter, others counter]

end CountsUp

namespace Statistics

variable (stats : Statistics) (options : Options)

theorem product?_compile (function : Function) :
    (stats.compile options function).product? = function.product? options := by
  unfold compile Function.product?
  cases (compileFunction options).run function with
  | ok code lowered => rfl
  | error reason stopped => rfl

/-- A function that fails is not counted. -/
theorem compile_of_error {function stopped : Function} {reason : CodeError}
    (failed : (compileFunction options).run function = .error reason stopped) :
    stats.compile options function = { outcome := .error reason, function := stopped, stats } := by
  rw [compile, failed]

theorem countsUp_compile (function : Function) :
    CountsUp stats (function.product? options).toList (stats.compile options function).stats := by
  unfold compile Function.product?
  cases ran : (compileFunction options).run function with
  | ok code lowered =>
      intro counter
      cases counter with
      | functions | bytes | fixups | expandedBranches | relaxationScans => rfl
      | instructions =>
          exact congrArg (stats.instructionsEncoded + ·) (instructions_of_compileFunction ran)
  | error reason stopped => exact .nil stats

/-- The counters of a session after it has compiled functions. -/
def afterEach (functions : List Function) : Statistics :=
  ((stats.compileEach options functions).getLast?.map Compilation.stats).getD stats

theorem afterEach_cons (function : Function) (rest : List Function) :
    stats.afterEach options (function :: rest) =
      (stats.compile options function).stats.afterEach options rest := by
  rw [afterEach, compileEach, List.getLast?_cons, afterEach]
  cases ((stats.compile options function).stats.compileEach options rest).getLast? with
  | none => rfl
  | some last => rfl

/-- What a session makes of functions is what compilation makes of each on its own. -/
theorem products_compileEach (functions : List Function) :
    (stats.compileEach options functions).filterMap Compilation.product? =
      functions.filterMap (Function.product? options) := by
  induction functions generalizing stats with
  | nil => rfl
  | cons function rest ih =>
      rw [compileEach, List.filterMap_cons, List.filterMap_cons, product?_compile, ih]

theorem countsUp_afterEach (functions : List Function) :
    CountsUp stats (functions.filterMap (Function.product? options))
      (stats.afterEach options functions) := by
  induction functions generalizing stats with
  | nil => exact .nil stats
  | cons function rest ih =>
      have counts := (stats.countsUp_compile options function).append (ih _)
      rw [afterEach_cons, List.filterMap_cons]
      cases product : function.product? options with
      | none => rwa [product] at counts
      | some value => rwa [product] at counts

/-- Where a function fails, the counters are those after the functions before it. -/
theorem getElem?_compileEach_of_error {functions : List Function} {index : Nat}
    {function stopped : Function} {reason : CodeError} (found : functions[index]? = some function)
    (failed : (compileFunction options).run function = .error reason stopped) :
    (stats.compileEach options functions)[index]? = some {
      outcome := .error reason
      function := stopped
      stats := stats.afterEach options (functions.take index) } := by
  induction functions generalizing stats index with
  | nil => contradiction
  | cons first rest ih =>
      rw [compileEach]
      cases index with
      | zero =>
          cases found
          rw [List.getElem?_cons_zero, stats.compile_of_error options failed]
          rfl
      | succ index =>
          rw [List.getElem?_cons_succ, List.take_succ_cons, afterEach_cons]
          exact ih _ found

end Statistics

/-- After any functions, every counter of a session has grown by the sum over the functions that
have been compiled, and those are the ones that compile on their own. A function that fails leaves
the counters as they are after the functions before it, and the order of the functions does not
matter for where the counters end. -/
theorem compileEach_countsUp (options : Options) (stats : Statistics)
    (functions : List Function) :
    CountsUp stats ((stats.compileEach options functions).filterMap Compilation.product?)
        (stats.afterEach options functions) ∧
      (stats.compileEach options functions).filterMap Compilation.product? =
        functions.filterMap (Function.product? options) ∧
      (∀ (index : Nat) (function stopped : Function) (reason : CodeError),
        functions[index]? = some function →
        (compileFunction options).run function = .error reason stopped →
          (stats.compileEach options functions)[index]? = some {
            outcome := .error reason
            function := stopped
            stats := stats.afterEach options (functions.take index) }) ∧
      ∀ reordered, functions.Perm reordered →
        stats.afterEach options reordered = stats.afterEach options functions := by
  have products := stats.products_compileEach options functions
  have counts := stats.countsUp_afterEach options functions
  refine ⟨?_, products, ?_, ?_⟩
  · rwa [products]
  · intro index function stopped reason found failed
    exact stats.getElem?_compileEach_of_error options found failed
  · intro reordered order
    have others := stats.countsUp_afterEach options reordered
    exact (others.perm (order.filterMap _).symm).unique counts

/-- A function that refers to a frame slot which it does not have: lowering stops. -/
def slotless : Function where
  name := "slotless"
  blocks := [
    { name := "start"
      instrs := [
        { opcode := .mov16rm, operands := [.define .cg, .frameIndex 0, .immediate 0] },
        { opcode := .ret }] }]

/-- Two branches out of reach, the second of which has no condition: relaxation stops when it has
expanded the first. -/
def unconditioned : Function where
  name := "unconditioned"
  blocks := [
    { name := "start"
      instrs := { opcode := .jcc, operands := [.block 1, .immediate Condition.equal.code] } ::
        { opcode := .jcc, operands := [.block 1, .immediate 9] } ::
        List.replicate 64 { opcode := .ldImm64, operands := [.define .sr, .immediate 0] } },
    { name := "done", instrs := [{ opcode := .ret }] }]

/-- A function with a register that has not been allocated: encoding stops when it has encoded the
call. -/
def unfinished : Function where
  name := "unfinished"
  blocks := [
    { name := "start"
      instrs := [
        { opcode := .jal, operands := [.symbol "callee"] },
        { opcode := .push16r, operands := [.register (.virtual 1) {}] },
        { opcode := .ret }] }]

/-- The function in which relaxation has stopped. -/
def unconditionedStopped : Function where
  name := "unconditioned"
  frame := { framePointer? := some false }
  blocks := [
    { name := "start"
      instrs := .skip Condition.notEqual.code :: .longJump 1 ::
        { opcode := .jcc, operands := [.block 1, .immediate 9] } ::
        List.replicate 64 { opcode := .ldImm64, operands := [.define .sr, .immediate 0] } },
    { name := "done", instrs := [{ opcode := .ret }] }]

/-- The counters of a session that has compiled `stretched` only. -/
def stretchedStats : Statistics where
  functionsCompiled := 1
  instructionsEncoded := 68
  bytesEmitted := 1056
  fixupsRecorded := 2
  branchesExpanded := 1
  relaxationIterations := 2

theorem compileEach_countsUp_stretched :
    [slotless, stretched, unconditioned, unfinished].Perm
        [unfinished, unconditioned, stretched, slotless] ∧
      Statistics.afterEach {} {} [unfinished, unconditioned, stretched, slotless] =
        stretchedStats ∧
      (compileFunction {}).run unconditioned =
        .error (.malformedOperand .jcc 1 .conditionCode) unconditionedStopped ∧
      (Statistics.compileEach {} {} [slotless, stretched, unconditioned, unfinished])[2]? = some {
        outcome := .error (.malformedOperand .jcc 1 .conditionCode)
        function := unconditionedStopped
        stats := stretchedStats } := by
  obtain ⟨-, -, failing, order⟩ :=
    compileEach_countsUp {} {} [slotless, stretched, unconditioned, unfinished]
  have reordered := List.reverse_perm [slotless, stretched, unconditioned, unfinished]
  have counted : Statistics.afterEach {} {} [slotless, stretched, unconditioned, unfinished] =
      stretchedStats := by
    decide +kernel
  have before : Statistics.afterEach {} {} [slotless, stretched] = stretchedStats := by
    decide +kernel
  have failed : (compileFunction {}).run unconditioned =
      .error (.malformedOperand .jcc 1 .conditionCode) unconditionedStopped := by
    decide +kernel
  refine ⟨reordered.symm, (order _ reordered.symm).trans counted, failed, ?_⟩
  rw [← before]
  exact failing 2 unconditioned unconditionedStopped _ rfl failed

end MachineCode
