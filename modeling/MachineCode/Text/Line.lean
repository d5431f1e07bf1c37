import MachineCode.Text.Alphanumeric
import MachineCode.Text.Error
import MachineCode.Text.Space

/-!
# Source lines

A text is read line by line. A semicolon starts a comment that reaches to the end of its line,
white space at the ends of a line does not count, and lines without content are skipped but
counted.
-/

namespace MachineCode.Text

/-- A line with content. -/
structure SourceLine where
  /-- The number of the line, counted from one. -/
  number : Nat
  text : List Char
  deriving DecidableEq, Repr

namespace SourceLine

def error (line : SourceLine) (cause : ReadCause) : ReadError :=
  { line := line.number, cause }

/-- The report that something else was needed in the place of a text. -/
def expected (line : SourceLine) (expectation : Expectation) (found : List Char) : ReadError :=
  line.error (.expected expectation (.ofList found))

/-- The report that something is missing on the line. -/
def missing (line : SourceLine) (expectation : Expectation) : ReadError :=
  line.expected expectation line.text

end SourceLine

def content (line : List Char) : List Char :=
  trim (line.takeWhile fun char => char != ';')

/-- The lines with content of lines that are numbered from a start. -/
def numberLines (start : Nat) : List (List Char) → List SourceLine
  | [] => []
  | line :: rest =>
      if (content line).isEmpty then
        numberLines (start + 1) rest
      else
        { number := start, text := content line } :: numberLines (start + 1) rest

/-- The lines with content of a text. -/
def sourceLines (text : List Char) : List SourceLine :=
  numberLines 1 (text.splitOn '\n')

/-- Whether a character may stand in the name of a block. -/
def isLabelChar (char : Char) : Bool :=
  isAlphanumeric char || char == '_' || char == '.'

/-- White space never stands in the name of a block. -/
theorem isLabelChar_of_isSpace {char : Char} (space : isSpace char = true) :
    isLabelChar char = false := by
  have codes : ∀ code ∈ spaceCodes, inRanges alphanumericRanges code = false ∧
      code ≠ '_'.toNat ∧ code ≠ '.'.toNat := by
    decide +kernel
  obtain ⟨alphanumeric, underscore, point⟩ := codes char.toNat (List.mem_of_elem_eq_true space)
  have noUnderscore : char ≠ '_' := fun equal => underscore (congrArg Char.toNat equal)
  have noPoint : char ≠ '.' := fun equal => point (congrArg Char.toNat equal)
  simp [isLabelChar, isAlphanumeric, alphanumeric, noUnderscore, noPoint]

def label? (line : List Char) : Option (List Char) :=
  if line.getLast? = some ':' ∧ line.dropLast ≠ [] ∧ line.dropLast.all isLabelChar then
    some line.dropLast
  else
    none

end MachineCode.Text
