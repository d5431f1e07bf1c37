/-!
# Numerals

Integers are written in decimal or, behind `0x`, in hexadecimal, with an optional minus sign in
front of either. One plus sign may precede the digits. The digits denote a magnitude below
2^64, which is read as a 64-bit two's complement integer and then negated if a minus sign
was written.
-/

namespace MachineCode.Text

/-- The value of a digit in a base of at most sixteen. -/
def digit? (base : Nat) (char : Char) : Option Nat :=
  let value :=
    if char.isDigit then some (char.toNat - '0'.toNat)
    else if 'a' ≤ char && char ≤ 'f' then some (char.toNat - 'a'.toNat + 10)
    else if 'A' ≤ char && char ≤ 'F' then some (char.toNat - 'A'.toNat + 10)
    else none
  value.filter (· < base)

/-- The value of digits that continue a number. -/
def digitsValue? (base : Nat) : Nat → List Char → Option Nat
  | value, [] => some value
  | value, char :: rest => do
      digitsValue? base (value * base + (← digit? base char)) rest

/-- The value of an unsigned numeral below a limit. -/
def readUnsigned? (base limit : Nat) (text : List Char) : Option Nat :=
  let digits := match text with
    | '+' :: rest => rest
    | _ => text
  if digits.isEmpty then none
  else (digitsValue? base 0 digits).filter (· < limit)

/-- The value of the digits of an integer, which tell their base. -/
def readMagnitude? : List Char → Option Nat
  | '0' :: 'x' :: digits => readUnsigned? 16 UInt64.size digits
  | '0' :: 'X' :: digits => readUnsigned? 16 UInt64.size digits
  | digits => readUnsigned? 10 UInt64.size digits

def readInteger? : List Char → Option Int64
  | '-' :: digits => (readMagnitude? digits).map fun magnitude => -Int64.ofNat magnitude
  | digits => (readMagnitude? digits).map Int64.ofNat

/-- A number in lower case hexadecimal digits, with leading zeros up to a width. -/
def hex (width number : Nat) : String :=
  .ofList ((Nat.toDigits 16 number).leftpad width '0')

end MachineCode.Text
