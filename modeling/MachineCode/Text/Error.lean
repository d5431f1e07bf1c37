/-!
# Reading errors

Why a text is not a list of machine functions, and on which line that shows.
-/

namespace MachineCode.Text

/-- What a reader needs at a place of the text. -/
inductive Expectation where
  | functionHeader
  | stackSize
  | offsetAdjustment
  | objectField
  | objectSize
  | objectOffset
  | register
  | registerDefinition
  | operand
  | operandFlag
  | registerAfterFlags
  deriving DecidableEq, Repr

def Expectation.phrase : Expectation → String
  | .functionHeader => "`func @name \x7b`"
  | .stackSize => "a stack size"
  | .offsetAdjustment => "an offset adjustment"
  | .objectField => "`size=N` or `offset=N`"
  | .objectSize => "an object size"
  | .objectOffset => "an object offset"
  | .register => "a register"
  | .registerDefinition => "a register definition"
  | .operand => "an operand"
  | .operandFlag => "an operand flag"
  | .registerAfterFlags => "a register after operand flags"

/-- A reason for which a text cannot be read. -/
inductive ReadCause where
  /-- Something else stands at a place. -/
  | expected (expectation : Expectation) (found : String)
  /-- No opcode has this name. -/
  | unknownOpcode (name : String)
  /-- A jump names a block that the function does not have. -/
  | undefinedBlock (name : String)
  /-- A second block has the same name. -/
  | duplicateBlock (name : String)
  /-- A numeral is malformed or too large. -/
  | invalidNumber (text : String)
  /-- A line before the first block is no directive. -/
  | outsideBlock (text : String)
  /-- A function is not closed. -/
  | unterminated (name : String)
  deriving DecidableEq, Repr

/-- A reason for which a text cannot be read, with the number of the line. -/
structure ReadError where
  line : Nat
  cause : ReadCause
  deriving DecidableEq, Repr

def ReadCause.message : ReadCause → String
  | .expected expectation found => "expected " ++ expectation.phrase ++ ", found `" ++ found ++ "`"
  | .unknownOpcode name => "unknown opcode `" ++ name ++ "`"
  | .undefinedBlock name => "undefined block `^" ++ name ++ "`"
  | .duplicateBlock name => "duplicate block `" ++ name ++ "`"
  | .invalidNumber text => "invalid number `" ++ text ++ "`"
  | .outsideBlock text => "`" ++ text ++ "` appears outside of a block"
  | .unterminated name => "function `" ++ name ++ "` is never closed"

def ReadError.message (error : ReadError) : String :=
  "line " ++ error.line.repr ++ ": " ++ error.cause.message

end MachineCode.Text
