import MachineCode.Compilation
import MachineCode.Text.Numeral
import MachineCode.Text.Printer
import MachineCode.Text.Reader

/-!
# The command line

The command reads functions from standard input, compiles them one after the other, and prints
their code, the starts of their blocks and their fixups. It stops at the first function that
cannot be compiled and keeps what it has printed before.
-/

namespace MachineCode.CommandLine

/-- What the command is asked to do. -/
structure Settings where
  isBigEndian : Bool := false
  keepFramePointer : Bool := false
  printFunctions : Bool := false
  printStats : Bool := false
  deriving DecidableEq, Repr

/-- The command that a list of arguments asks for. -/
inductive Command where
  | compile (settings : Settings)
  | version
  | invalid (argument : String)
  deriving DecidableEq, Repr

/-- Read the arguments from left to right, starting from settings. -/
def Command.ofArguments (settings : Settings) : List String → Command
  | [] => .compile settings
  | "--big-endian" :: rest => ofArguments { settings with isBigEndian := true } rest
  | "--disable-fp-elim" :: rest => ofArguments { settings with keepFramePointer := true } rest
  | "--print-mir" :: rest => ofArguments { settings with printFunctions := true } rest
  | "--stats" :: rest => ofArguments { settings with printStats := true } rest
  | "--version" :: _ => .version
  | "-V" :: _ => .version
  | argument :: _ => .invalid argument

/-- The code generation options that settings ask for. -/
def Settings.options (settings : Settings) : Options :=
  { byteOrder := if settings.isBigEndian then .big else .little
    keepFramePointer := settings.keepFramePointer }

/-- What the command writes, and its exit code. -/
structure Output where
  exitCode : Nat := 0
  standardOutput : String := ""
  standardError : String := ""
  deriving DecidableEq, Repr

/-- Write lines to standard output before the rest of the output. -/
def Output.prependLines (lines : List String) (output : Output) : Output :=
  { output with
    standardOutput := String.join (lines.map (· ++ "\n")) ++ output.standardOutput }

/-- An unsuccessful end with a line on standard error. -/
def Output.failure (exitCode : Nat) (line : String) : Output :=
  { exitCode, standardError := line ++ "\n" }

/-- An offset in hexadecimal with at least four digits. -/
def offsetText (offset : Nat) : String :=
  "0x" ++ Text.hex 4 offset

/-- The name of a block, or a question mark if there is no such block. -/
def blockName (function : Function) (id : BlockId) : String :=
  match function.block? id with
  | some block => block.name
  | none => "?"

def blockLine (function : Function) (start : BlockId × Nat) : String :=
  "  " ++ blockName function start.1 ++ " @ " ++ offsetText start.2

/-- The line for the bytes at an offset. -/
def bytesLine (offset : Nat) (bytes : List UInt8) : String :=
  "  " ++ Text.hex 6 offset ++ ": " ++ " ".intercalate (bytes.map fun byte => Text.hex 2 byte.toNat)

/-- The lines for code, eight bytes on each. -/
def codeLines (bytes : List UInt8) : List String :=
  (List.range ((bytes.length + 7) / 8)).map fun row =>
    bytesLine (8 * row) ((bytes.drop (8 * row)).take 8)

def fixupLine (function : Function) (fixup : Fixup) : Except CodeError String :=
  let start := "  fixup " ++ offsetText fixup.offset ++ " " ++ fixup.kind.name ++ " "
  match fixup.target with
  | .symbol _ => do
      let type ← fixup.relocationType
      .ok (start ++ fixup.target.text ++ " r_type=" ++ type.repr)
  | .block id => .ok (start ++ "^" ++ blockName function id)

/-- The lines for fixups up to the first that has no line, and the reason for which it has
none. -/
def fixupLines (function : Function) : List Fixup → List String × Option CodeError
  | [] => ([], none)
  | fixup :: rest =>
      match fixupLine function fixup with
      | .ok line =>
          let (lines, reason) := fixupLines function rest
          (line :: lines, reason)
      | .error reason => ([], some reason)

/-- The lines for a compiled function in front of its fixups. -/
def functionLines (settings : Settings) (function : Function) (compiled : CompiledFunction) :
    List String :=
  (if settings.printFunctions then [function.print] else []) ++
    [compiled.name ++ ": " ++ compiled.bytes.length.repr ++ " bytes"] ++
    compiled.blockStarts.map (blockLine function) ++ codeLines compiled.bytes

/-- The line that reports a fixup without relocation type. -/
def unmappedLine : CodeError → String
  | .unmappedFixupKind kind => "Error: UnmappedFixupKind(" ++ kind.toNat.repr ++ ")"
  | reason => "Error: " ++ reason.message

/-- Compile functions one after the other. -/
def compileAll (settings : Settings) (stats : Statistics) : List Function → Output
  | [] =>
      if settings.printStats then { standardError := stats.report ++ "\n" } else {}
  | function :: rest =>
      let compilation := stats.compile settings.options function
      match compilation.outcome with
      | .error reason => .failure 1 ("Error in " ++ function.name ++ ": " ++ reason.message)
      | .ok compiled =>
          let (fixups, unmapped?) := fixupLines compilation.function compiled.fixups
          let lines := functionLines settings compilation.function compiled ++ fixups
          match unmapped? with
          | some reason => (Output.failure 1 (unmappedLine reason)).prependLines lines
          | none => (compileAll settings compilation.stats rest).prependLines lines

/-- The output of the command for its arguments and its standard input. -/
def run (arguments : List String) (input : String) : Output :=
  match Command.ofArguments {} arguments with
  | .version => { standardOutput := "tntc 0.1.0\n" }
  | .invalid argument => .failure 2 ("error: unexpected argument '" ++ argument ++ "' found")
  | .compile settings =>
      match Text.readModule input with
      | .ok functions => compileAll settings {} functions
      | .error error => .failure 1 ("Error: " ++ error.message)

end MachineCode.CommandLine
