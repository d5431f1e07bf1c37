import MachineCode.Compilation
import MachineCode.Proofs.Checked

/-!
# Byte order

Two compilations of a function that differ in the byte order of the stream take the same course:
they stop for the same reason at the same point, or both succeed, and then they differ in the bytes
alone. `toBigEndian` says how. It reorders the bytes of each word by their places and knows nothing
of the fields that they hold.
-/

namespace MachineCode

def exchangeDigits (byte : UInt8) : UInt8 :=
  .ofNat (byte.toNat % 16 * 16 + byte.toNat / 16)

/-- Little-endian code in big-endian order: in every group of eight bytes, the digits of the second
are exchanged, the third and the fourth change places, and the last four are reversed. -/
def toBigEndian : List UInt8 → List UInt8
  | first :: second :: third :: fourth :: fifth :: sixth :: seventh :: eighth :: rest =>
      first :: exchangeDigits second :: fourth :: third :: eighth :: seventh :: sixth :: fifth ::
        toBigEndian rest
  | incomplete => incomplete

theorem swapNibbles_eq_exchangeDigits (byte : UInt8) : swapNibbles byte = exchangeDigits byte := by
  have every : ∀ bits : BitVec 8, swapNibbles ⟨bits⟩ = exchangeDigits ⟨bits⟩ := by decide +kernel
  exact every byte.toBitVec

theorem length_toBigEndian (bytes : List UInt8) : (toBigEndian bytes).length = bytes.length := by
  fun_induction toBigEndian bytes with
  | case1 first second third fourth fifth sixth seventh eighth rest ih =>
      simp only [List.length_cons, ih]
  | case2 => rfl

/-- Whole words in front are reordered on their own. -/
theorem toBigEndian_append {bytes : List UInt8} (whole : 8 ∣ bytes.length) (rest : List UInt8) :
    toBigEndian (bytes ++ rest) = toBigEndian bytes ++ toBigEndian rest := by
  fun_induction toBigEndian bytes with
  | case1 first second third fourth fifth sixth seventh eighth others ih =>
      have othersWhole : 8 ∣ others.length := by
        simp only [List.length_cons] at whole
        omega
      simp only [List.cons_append, toBigEndian, ih othersWhole]
  | case2 incomplete short =>
      match incomplete with
      | [] => rfl
      | [_] | [_, _] | [_, _, _] | [_, _, _, _] | [_, _, _, _, _] | [_, _, _, _, _, _]
      | [_, _, _, _, _, _, _] => simp at whole
      | _ :: _ :: _ :: _ :: _ :: _ :: _ :: _ :: _ => exact (short _ _ _ _ _ _ _ _ _ rfl).elim

theorem toBigEndian_bytes (word : Word) :
    toBigEndian (word.bytes .little) = word.bytes .big := by
  simp only [Word.bytes_eq, Word.valueBytes, List.cons_append, List.nil_append, toBigEndian,
    swapNibbles_eq_exchangeDigits]

theorem dvd_length_bytes (order : ByteOrder) (word : Word) : 8 ∣ (word.bytes order).length := by
  rw [Word.length_bytes]
  exact Nat.dvd_refl 8

theorem dvd_length_flatMap_bytes (order : ByteOrder) (words : List Word) :
    8 ∣ (words.flatMap (Word.bytes order)).length := by
  induction words with
  | nil => exact Nat.dvd_zero 8
  | cons word others ih =>
      rw [List.flatMap_cons, List.length_append]
      exact Nat.dvd_add (dvd_length_bytes order word) ih

theorem toBigEndian_flatMap_bytes (words : List Word) :
    toBigEndian (words.flatMap (Word.bytes .little)) = words.flatMap (Word.bytes .big) := by
  induction words with
  | nil => rfl
  | cons word others ih =>
      rw [List.flatMap_cons, toBigEndian_append (dvd_length_bytes .little word), toBigEndian_bytes,
        ih, List.flatMap_cons]

/-! ## Streams -/

theorem encode_big_of_ok {instr : Instr} {encoded : EncodedInstr}
    (ran : instr.encode .little = .ok encoded) :
    8 ∣ encoded.bytes.length ∧
      instr.encode .big = .ok { encoded with bytes := toBigEndian encoded.bytes } := by
  obtain ⟨⟨words, fixups⟩, wordsEncoded, returned⟩ := exists_of_bind_eq_ok ran
  cases returned
  refine ⟨dvd_length_flatMap_bytes .little words, ?_⟩
  rw [Instr.encode, wordsEncoded, toBigEndian_flatMap_bytes]
  rfl

/-- Whether an instruction can be encoded does not depend on the byte order. -/
theorem encode_big_of_error {instr : Instr} {reason : CodeError}
    (failed : instr.encode .little = .error reason) : instr.encode .big = .error reason := by
  rw [Instr.encode] at failed ⊢
  cases wordsEncoded : instr.encodeWords with
  | error reason =>
      rw [wordsEncoded] at failed
      cases failed
      rfl
  | ok encoded =>
      rw [wordsEncoded] at failed
      contradiction

/-- Code as it stands in the other byte order. -/
def Code.toBigEndian (code : Code) : Code :=
  { code with bytes := MachineCode.toBigEndian code.bytes }

/-- The code of instructions consists of whole words, and in the other byte order it has the same
fixups. -/
theorem encodeInstrs_big (start : Nat) (instrs : List Instr) :
    encodeInstrs .big start instrs = Code.toBigEndian <$> encodeInstrs .little start instrs ∧
      ∀ code, encodeInstrs .little start instrs = .ok code → 8 ∣ code.bytes.length := by
  induction instrs generalizing start with
  | nil =>
      refine ⟨rfl, ?_⟩
      rintro code ⟨⟩
      exact Nat.dvd_zero 8
  | cons instr others ih =>
      rw [encodeInstrs, encodeInstrs]
      cases encodedEq : instr.encode .little with
      | error reason =>
          rw [encode_big_of_error encodedEq]
          exact ⟨rfl, nofun⟩
      | ok encoded =>
          obtain ⟨whole, bigEq⟩ := encode_big_of_ok encodedEq
          obtain ⟨restEq, restWhole⟩ := ih (start + encoded.bytes.length)
          rw [bigEq]
          simp only [bind, Except.bind, length_toBigEndian, restEq]
          cases ran : encodeInstrs .little (start + encoded.bytes.length) others with
          | error reason => exact ⟨rfl, nofun⟩
          | ok code =>
              refine ⟨?_, ?_⟩
              · simp only [Functor.map, Except.map, Code.toBigEndian, toBigEndian_append whole]
              · rintro both ⟨⟩
                rw [List.length_append]
                exact Nat.dvd_add whole (restWhole code ran)

/-- A stream as it stands in the other byte order. -/
def CodeStream.toBigEndian (stream : CodeStream) : CodeStream :=
  { stream with bytes := MachineCode.toBigEndian stream.bytes }

theorem encodeBlocks_big (start : Nat) (blocks : List Block) :
    encodeBlocks .big start blocks = CodeStream.toBigEndian <$> encodeBlocks .little start blocks ∧
      ∀ stream, encodeBlocks .little start blocks = .ok stream → 8 ∣ stream.bytes.length := by
  induction blocks generalizing start with
  | nil =>
      refine ⟨rfl, ?_⟩
      rintro stream ⟨⟩
      exact Nat.dvd_zero 8
  | cons block others ih =>
      obtain ⟨blockEq, blockWhole⟩ := encodeInstrs_big start block.instrs
      rw [encodeBlocks, encodeBlocks, blockEq]
      cases codeEq : encodeInstrs .little start block.instrs with
      | error reason => exact ⟨rfl, nofun⟩
      | ok code =>
          have whole := blockWhole code codeEq
          obtain ⟨restEq, restWhole⟩ := ih (start + code.bytes.length)
          simp only [Functor.map, Except.map, bind, Except.bind, Code.toBigEndian,
            length_toBigEndian] at restEq ⊢
          rw [restEq]
          cases ran : encodeBlocks .little (start + code.bytes.length) others with
          | error reason => exact ⟨rfl, nofun⟩
          | ok stream =>
              refine ⟨?_, ?_⟩
              · simp only [CodeStream.toBigEndian, toBigEndian_append whole]
              · rintro both ⟨⟩
                rw [List.length_append]
                exact Nat.dvd_add whole (restWhole stream ran)

/-! ## Functions -/

/-- Lowering does not look at the byte order. -/
theorem lowerFrame_withByteOrder (options : Options) (order : ByteOrder) :
    lowerFrame { options with byteOrder := order } = lowerFrame options := rfl

/-- The outcomes of compiling a function in both byte orders: they fail alike, or succeed alike and
differ in nothing but the bytes. -/
inductive AgreeInBothOrders :
    EStateM.Result CodeError Function CompiledFunction →
      EStateM.Result CodeError Function CompiledFunction → Prop
  | fail (reason : CodeError) (stopped : Function) :
      AgreeInBothOrders (.error reason stopped) (.error reason stopped)
  | succeed {little big : CompiledFunction} (lowered : Function)
      (name : big.name = little.name)
      (blockStarts : big.blockStarts = little.blockStarts)
      (fixups : big.fixups = little.fixups)
      (relaxation : big.relaxation = little.relaxation)
      (relocations : big.relocations = little.relocations)
      (whole : 8 ∣ little.bytes.length)
      (bytes : big.bytes = toBigEndian little.bytes) :
      AgreeInBothOrders (.ok little lowered) (.ok big lowered)

/-- The byte order of the stream affects the bytes of a compiled function and nothing else. -/
theorem compileFunction_byteOrder (options : Options) (function : Function) :
    AgreeInBothOrders
      ((compileFunction { options with byteOrder := .little }).run function)
      ((compileFunction { options with byteOrder := .big }).run function) := by
  rw [compileFunction, compileFunction, lowerFrame_withByteOrder options .little,
    lowerFrame_withByteOrder options .big, EStateM.run_bind, EStateM.run_bind]
  cases (lowerFrame options).run function with
  | error reason stopped => exact .fail reason stopped
  | ok _ lowered =>
      simp only [EStateM.run_bind]
      cases relaxBranches.run lowered with
      | error reason stopped => exact .fail reason stopped
      | ok relaxation relaxed =>
          obtain ⟨streamEq, whole⟩ := encodeBlocks_big 0 relaxed.blocks
          simp only [EStateM.run_get, streamEq]
          cases encoded : encodeBlocks .little 0 relaxed.blocks with
          | error reason => exact .fail reason relaxed
          | ok stream => exact .succeed relaxed rfl rfl rfl rfl rfl (whole stream encoded) rfl

end MachineCode
