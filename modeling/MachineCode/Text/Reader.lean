import MachineCode.Function
import MachineCode.Text.Operand

/-!
# Reading functions

A function is written as a header, directives that describe its frame, and blocks, and is closed
by a brace on a line of its own. Names of blocks are collected first, so that a branch may refer
to a later block.
-/

namespace MachineCode.Text

/-- The fields of an object directive that have been read. -/
structure ObjectFields where
  size? : Option UInt64 := none
  offset? : Option Int64 := none

/-- Read a field of an object directive. -/
def readObjectField (line : SourceLine) (fields : ObjectFields) (word : List Char) :
    Except ReadError ObjectFields :=
  match splitFirst (· == '=') word with
  | some (key, value) =>
      match String.ofList key with
      | "size" => do
          let size ← readInteger line value
          .ok { fields with size? := some size.toUInt64 }
      | "offset" => do
          let offset ← readInteger line value
          .ok { fields with offset? := some offset }
      | _ => .error (line.expected .objectField word)
  | none => .error (line.expected .objectField word)

def readObject (line : SourceLine) (words : List (List Char)) : Except ReadError FrameObject := do
  let fields ← words.foldlM (readObjectField line) {}
  match fields.size?, fields.offset? with
  | some size, some offset => .ok { size, offset }
  | none, _ => .error (line.missing .objectSize)
  | _, none => .error (line.missing .objectOffset)

/-- The integer that follows the keyword of a directive. -/
def readDirectiveInteger (line : SourceLine) (expectation : Expectation) :
    List (List Char) → Except ReadError Int64
  | word :: _ => readInteger line word
  | [] => .error (line.missing expectation)

/-- A register that has to be preserved. -/
def readPreserved (line : SourceLine) (word : List Char) : Except ReadError Register :=
  match Register.ofName? (.ofList word) with
  | some register => .ok register
  | none => .error (line.expected .register word)

/-- Apply a directive to a function. -/
def readDirective (function : Function) (line : SourceLine) : Except ReadError Function :=
  match words line.text with
  | [] => .error (line.error (.outsideBlock (.ofList line.text)))
  | keyword :: arguments =>
      let frame := function.frame
      match String.ofList keyword with
      | "stack_size" => do
          let size ← readDirectiveInteger line .stackSize arguments
          .ok { function with frame := { frame with stackSize := size.toUInt64 } }
      | "offset_adjustment" => do
          let adjustment ← readDirectiveInteger line .offsetAdjustment arguments
          .ok { function with frame := { frame with offsetAdjustment := adjustment } }
      | "var_sized_objects" =>
          .ok { function with frame := { frame with hasVarSizedObjects := true } }
      | "frame_address_taken" =>
          .ok { function with frame := { frame with isAddressTaken := true } }
      | "object" => do
          let object ← readObject line arguments
          .ok { function with frame := (frame.addObject object).2 }
      | "fixed_object" => do
          let object ← readObject line arguments
          .ok { function with frame := (frame.addFixedObject object).2 }
      | "callee_saved" => do
          let registers ← arguments.mapM (readPreserved line)
          .ok { function with calleeSaved := function.calleeSaved ++ registers }
      | _ => .error (line.error (.outsideBlock (.ofList line.text)))

/-- The names of the blocks that lines start, behind names that have been seen. -/
def readLabels : List (List Char) → List SourceLine → Except ReadError (List (List Char))
  | seen, [] => .ok seen
  | seen, line :: rest =>
      match label? line.text with
      | none => readLabels seen rest
      | some name =>
          if seen.contains name then
            .error (line.error (.duplicateBlock (.ofList name)))
          else
            readLabels (seen ++ [name]) rest

/-- The instructions before the first block that lines start, and the blocks. -/
def readBlocks (labels : List (List Char)) :
    List SourceLine → Except ReadError (List Instr × List Block)
  | [] => .ok ([], [])
  | line :: rest =>
      match label? line.text with
      | some name => do
          let (instrs, blocks) ← readBlocks labels rest
          .ok ([], { name := .ofList name, instrs } :: blocks)
      | none => do
          let instr ← readInstr labels line
          let (instrs, blocks) ← readBlocks labels rest
          .ok (instr :: instrs, blocks)

def SourceLine.isLabel (line : SourceLine) : Bool :=
  (label? line.text).isSome

/-- The function with the given name and body. -/
def readBody (name : List Char) (body : List SourceLine) : Except ReadError Function := do
  let labels ← readLabels [] body
  let directives := body.takeWhile fun line => !line.isLabel
  let function ← directives.foldlM readDirective { name := .ofList name }
  let (_, blocks) ← readBlocks labels (body.dropWhile fun line => !line.isLabel)
  .ok { function with blocks }

/-- The name that a function's header gives. -/
def headerName? (text : List Char) : Option (List Char) := do
  let rest ← "func".toList.isPrefixOf? text
  let '@' :: rest := trimStart rest | none
  let name := trim rest.dropLast
  if rest.getLast? = some '\x7b' ∧ name ≠ [] ∧ !name.any isSpace then
    some name
  else
    none

/-- The lines before the one that closes a function, and those behind it. -/
def splitAtClose : List SourceLine → Option (List SourceLine × List SourceLine)
  | [] => none
  | line :: rest =>
      if line.text = ['\x7d'] then
        some ([], rest)
      else
        (splitAtClose rest).map fun (body, after) => (line :: body, after)

/-- What follows a function is shorter than what follows its header. -/
theorem length_of_splitAtClose {lines body after : List SourceLine}
    (split : splitAtClose lines = some (body, after)) : after.length < lines.length := by
  induction lines generalizing body after with
  | nil => simp [splitAtClose] at split
  | cons line rest ih =>
      rw [splitAtClose] at split
      split at split
      · simp only [Option.some.injEq, Prod.mk.injEq] at split
        simp [split.2]
      · obtain ⟨⟨inner, following⟩, found, equal⟩ := Option.map_eq_some_iff.mp split
        simp only [Prod.mk.injEq] at equal
        have shorter := ih found
        rw [equal.2] at shorter
        exact Nat.lt_succ_of_lt shorter

/-- The functions that lines denote. -/
def readFunctions (lines : List SourceLine) : Except ReadError (List Function) :=
  match lines with
  | [] => .ok []
  | header :: rest =>
      match headerName? header.text with
      | none => .error (header.missing .functionHeader)
      | some name =>
          match split : splitAtClose rest with
          | none => .error (header.error (.unterminated (.ofList name)))
          | some (body, after) =>
              have := length_of_splitAtClose split
              do
                let function ← readBody name body
                let functions ← readFunctions after
                .ok (function :: functions)
termination_by lines.length
decreasing_by exact Nat.lt_succ_of_lt this

/-- The functions that a text denotes. -/
def readModule (text : String) : Except ReadError (List Function) :=
  readFunctions (sourceLines text.toList)

end MachineCode.Text
