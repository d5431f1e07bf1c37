import MachineCode.Text.Numeral

/-!
# Numerals are read back

The decimal digits of a number denote that number. Integers of 64 bits are read back from their
decimal form at both ends of their range, because a magnitude may be as large as the absolute value
of the least integer, and natural numbers of 64 bits are read back as the integers with the same
bits.
-/

namespace MachineCode.Text

theorem digit?_digitChar {value : Nat} (isDigit : value < 10) :
    digit? 10 value.digitChar = some value := by
  revert value
  decide

theorem digitsValue?_append (base value : Nat) (front back : List Char) :
    digitsValue? base value (front ++ back) =
      (digitsValue? base value front).bind fun middle => digitsValue? base middle back := by
  induction front generalizing value with
  | nil => rfl
  | cons char rest ih =>
      rw [List.cons_append, digitsValue?, digitsValue?]
      cases digit? base char with
      | none => rfl
      | some digit => exact ih _

/-- Decimal digits denote the number that they were made from. -/
theorem digitsValue?_toDigits (number : Nat) :
    digitsValue? 10 0 (Nat.toDigits 10 number) = some number := by
  induction number using Nat.strongRecOn with
  | ind number ih =>
      by_cases small : number < 10
      · rw [Nat.toDigits_of_lt_base small, digitsValue?, digit?_digitChar small]
        simp [digitsValue?]
      · have large : 10 ≤ number := Nat.le_of_not_lt small
        rw [Nat.toDigits_of_base_le (by decide) large, digitsValue?_append,
          ih (number / 10) (by omega), Option.bind_some, digitsValue?,
          digit?_digitChar (Nat.mod_lt _ (by decide))]
        simp only [Option.bind_eq_bind, Option.bind_some, digitsValue?, Option.some.injEq]
        omega

section

variable {text : List Char} (digits : ∀ char ∈ text, char.isDigit = true)

include digits

/-- Digits have neither a sign in front nor a mark of their base. -/
theorem head?_ne_of_isDigit {char : Char} (noDigit : char.isDigit = false) (rest : List Char) :
    text ≠ char :: rest := by
  rintro rfl
  cases (digits char (List.mem_cons_self ..)).symm.trans noDigit

theorem readUnsigned?_of_isDigit (limit : Nat) (nonempty : text ≠ []) :
    readUnsigned? 10 limit text = (digitsValue? 10 0 text).filter (· < limit) := by
  unfold readUnsigned?
  split
  next rest => exact (head?_ne_of_isDigit digits rfl rest rfl).elim
  next => rw [if_neg (by simp [nonempty])]

theorem readMagnitude?_of_isDigit :
    readMagnitude? text = readUnsigned? 10 UInt64.size text := by
  unfold readMagnitude?
  split
  next marked => cases digits 'x' (by simp)
  next marked => cases digits 'X' (by simp)
  next => rfl

theorem readInteger?_of_isDigit :
    readInteger? text = (readMagnitude? text).map Int64.ofNat := by
  unfold readInteger?
  split
  next rest => exact (head?_ne_of_isDigit digits rfl rest rfl).elim
  next => rfl

end

theorem isDigit_of_mem_toDigits (number : Nat) :
    ∀ char ∈ Nat.toDigits 10 number, char.isDigit = true :=
  fun _ member => Nat.isDigit_of_mem_toDigits (by decide) (by decide) member

theorem readUnsigned?_toDigits {number limit : Nat} (fits : number < limit) :
    readUnsigned? 10 limit (Nat.toDigits 10 number) = some number := by
  rw [readUnsigned?_of_isDigit (isDigit_of_mem_toDigits number) limit Nat.toDigits_ne_nil,
    digitsValue?_toDigits]
  simp [fits]

theorem readMagnitude?_toDigits {number : Nat} (fits : number < UInt64.size) :
    readMagnitude? (Nat.toDigits 10 number) = some number := by
  rw [readMagnitude?_of_isDigit (isDigit_of_mem_toDigits number), readUnsigned?_toDigits fits]

/-- A natural number is read as the integer with the same bits. -/
theorem readInteger?_repr {number : Nat} (fits : number < UInt64.size) :
    readInteger? number.repr.toList = some (Int64.ofNat number) := by
  rw [Nat.toList_repr, readInteger?_of_isDigit (isDigit_of_mem_toDigits number),
    readMagnitude?_toDigits fits, Option.map_some]

/-- An integer is read back from its decimal form. -/
theorem readInteger?_toInt (value : Int64) : readInteger? value.toInt.repr.toList = some value := by
  have lower := value.le_toInt
  have upper := value.toInt_lt
  have sizeEq : UInt64.size = 18446744073709551616 := rfl
  rw [Int.repr_eq_if]
  split
  next nonnegative =>
    rw [readInteger?_repr (by omega), ← Int64.ofInt_eq_ofNat, Int.toNat_of_nonneg nonnegative,
      Int64.ofInt_toInt]
  next negative =>
    have nonnegative : 0 ≤ -value.toInt := by omega
    rw [String.toList_append, Nat.toList_repr]
    change (readMagnitude? (Nat.toDigits 10 (-value.toInt).toNat)).map _ = _
    rw [readMagnitude?_toDigits (by omega), Option.map_some, ← Int64.ofInt_eq_ofNat,
      Int.toNat_of_nonneg nonnegative, Int64.ofInt_neg, Int64.ofInt_toInt, Int64.neg_neg]

theorem mem_repr {value : Int} {char : Char} (member : char ∈ value.repr.toList) :
    char = '-' ∨ char.isDigit = true := by
  rw [Int.repr_eq_if] at member
  split at member
  · rw [Nat.toList_repr] at member
    exact .inr (isDigit_of_mem_toDigits _ char member)
  · rw [String.toList_append, Nat.toList_repr, List.mem_append] at member
    exact member.imp List.mem_singleton.mp (isDigit_of_mem_toDigits _ char)

theorem repr_ne_nil (value : Int) : value.repr.toList ≠ [] := by
  rw [Int.repr_eq_if]
  split
  · rw [Nat.toList_repr]
    exact Nat.toDigits_ne_nil
  · simp

end MachineCode.Text
