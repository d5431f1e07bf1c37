/-!
# White space

The white space characters, and the cutting of text at them. Texts are lists of characters.
-/

namespace MachineCode.Text

/-- The code points with the property White_Space. -/
def spaceCodes : List Nat :=
  [0x9, 0xa, 0xb, 0xc, 0xd, 0x20, 0x85, 0xa0, 0x1680, 0x2000, 0x2001, 0x2002, 0x2003, 0x2004,
    0x2005, 0x2006, 0x2007, 0x2008, 0x2009, 0x200a, 0x2028, 0x2029, 0x202f, 0x205f, 0x3000]

/-- Whether a character is white space. -/
def isSpace (char : Char) : Bool :=
  spaceCodes.contains char.toNat

def trimStart (text : List Char) : List Char :=
  text.dropWhile isSpace

def trimEnd (text : List Char) : List Char :=
  (text.reverse.dropWhile isSpace).reverse

def trim (text : List Char) : List Char :=
  trimEnd (trimStart text)

/-- The longest parts of a text that hold no white space. -/
def words (text : List Char) : List (List Char) :=
  (text.splitOnP isSpace).filter fun word => !word.isEmpty

/-- The parts of a text before and behind the first separator. -/
def splitFirst (isSeparator : Char → Bool) (text : List Char) :
    Option (List Char × List Char) :=
  match text.dropWhile fun char => !isSeparator char with
  | [] => none
  | _ :: behind => some (text.takeWhile fun char => !isSeparator char, behind)

end MachineCode.Text
