import Mathlib.Data.List.Basic
import CFrontEnd.Proofs.Text.Numerals
import CFrontEnd.Scan.Quoted
import CFrontEnd.Spelling.Literal

/-!
One code unit in a string literal: whichever way it is written, it is read back as the unit.
-/

namespace CFrontEnd

namespace EscapeReading

variable {encoding : Encoding} {unit : Nat} {rest digits next : List Char}

/-- A number is cut to the largest unit. -/
theorem numeric_eq (length value : Nat) (tooLarge : LexicalProblem) :
    numeric encoding length value tooLarge = ⟨length, [min value encoding.maxUnit],
      if value ≤ encoding.maxUnit then none else some tooLarge⟩ := by
  unfold numeric
  split
  · rename_i large
    rw [Nat.min_eq_right (Nat.le_of_lt large), if_neg (Nat.not_le.mpr large)]
  · rename_i small
    rw [Nat.min_eq_left (Nat.not_lt.mp small), if_pos (Nat.not_lt.mp small)]

theorem numeric_fits (fits : unit ≤ encoding.maxUnit) (length : Nat) (tooLarge : LexicalProblem) :
    numeric encoding length unit tooLarge = ⟨length, [unit], none⟩ := by
  rw [numeric_eq, Nat.min_eq_left fits, if_pos fits]

theorem read_mark {character : Char} (isMark : character = '"' ∨ character = '\\') :
    read encoding (character :: rest) = ⟨1, [character.toNat], none⟩ := by
  rcases isMark with rfl | rfl <;> rfl

theorem octalDigit_begins {digit : Char} (isDigit : isOctalDigit digit = true) :
    isLineEnd digit = false ∧ simple? digit = none ∧ digit ≠ 'x' := by
  have ascii := ascii_of_isHexDigit (isHexDigit_of_isOctalDigit isDigit)
  have facts : ∀ value : Fin 0x80, isOctalDigit (Char.ofNat value.val) = true →
      isLineEnd (Char.ofNat value.val) = false ∧ simple? (Char.ofNat value.val) = none ∧
        Char.ofNat value.val ≠ 'x' := by
    decide
  exact of_isAscii (fun digit => isOctalDigit digit = true → isLineEnd digit = false ∧
    simple? digit = none ∧ digit ≠ 'x') facts ascii isDigit

/-- Of the octal digits behind the first one two are taken. -/
theorem takeWhile_octal (few : digits.length ≤ 2)
    (areDigits : ∀ digit ∈ digits, isOctalDigit digit = true)
    (ends : digits.length < 2 → ∀ character, next.head? = some character →
      isOctalDigit character = false) :
    ((digits ++ next).take 2).takeWhile isOctalDigit = digits := by
  rw [List.take_append, List.take_of_length_le few]
  apply takeWhile_run areDigits
  intro character isNext
  by_cases full : digits.length = 2
  · simp [full] at isNext
  · obtain ⟨missing, isMissing⟩ : ∃ missing, 2 - digits.length = missing + 1 :=
      ⟨1 - digits.length, by omega⟩
    cases next with
    | nil => simp at isNext
    | cons first rest =>
      rw [isMissing, List.take_succ_cons] at isNext
      exact ends (by omega) character isNext

/-- An octal escape takes three digits, or the fewer ones that there are. -/
theorem read_octalRun (notEmpty : digits ≠ []) (few : digits.length ≤ 3)
    (areDigits : ∀ digit ∈ digits, isOctalDigit digit = true)
    (ends : digits.length < 3 → ∀ character, next.head? = some character →
      isOctalDigit character = false) :
    read encoding (digits ++ next) =
      numeric encoding digits.length (numeral 8 digits) .octalEscapeOutOfRange := by
  obtain ⟨first, others, rfl⟩ := List.exists_cons_of_ne_nil notEmpty
  obtain ⟨isFirst, areOthers⟩ := List.forall_mem_cons.mp areDigits
  obtain ⟨inLine, notSimple, notHex⟩ := octalDigit_begins isFirst
  rw [List.length_cons] at few ends
  have run : ((others ++ next).take 2).takeWhile isOctalDigit = others :=
    takeWhile_octal (by omega) areOthers fun fewer => ends (by omega)
  simp [read, inLine, notSimple, notHex, isFirst, run]

/-- A hexadecimal escape takes all digits that there are. -/
theorem read_hexRun (notEmpty : digits ≠ [])
    (areDigits : ∀ digit ∈ digits, isHexDigit digit = true)
    (ends : ∀ character, next.head? = some character → isHexDigit character = false) :
    read encoding ('x' :: (digits ++ next)) =
      numeric encoding (1 + digits.length) (numeral 16 digits) .hexEscapeOutOfRange := by
  have inLine : isLineEnd 'x' = false := rfl
  have notSimple : simple? 'x' = none := rfl
  simp [read, inLine, notSimple, takeWhile_run areDigits ends, notEmpty]

/-- Three octal digits are all that an octal escape takes, whatever comes next. -/
theorem read_octal (small : unit < 0o1000) (fits : unit ≤ encoding.maxUnit) (rest : List Char) :
    read encoding ((octalDigits unit).toList ++ rest) = ⟨3, [unit], none⟩ := by
  have length := length_octalDigits small
  have notEmpty : (octalDigits unit).toList ≠ [] := List.ne_nil_of_length_pos (by omega)
  rw [read_octalRun notEmpty (Nat.le_of_eq length) (fun _ => isOctalDigit_of_mem_octalDigits)
    (fun fewer => absurd length (Nat.ne_of_lt fewer)), length, numeral_octalDigits, numeric_fits fits]

/-- The digits of a unit must not stand in front of another digit. -/
theorem read_hexDigits (unit : Nat)
    (ends : ∀ character, rest.head? = some character → isHexDigit character = false) :
    read encoding ('x' :: ((hexDigits unit).toList ++ rest)) =
      numeric encoding (1 + (hexDigits unit).toList.length) unit .hexEscapeOutOfRange := by
  have isDigits : (hexDigits unit).toList = Nat.toDigits 16 unit := by simp [hexDigits]
  rw [isDigits, read_hexRun Nat.toDigits_ne_nil (fun _ => isHexDigit_of_mem_toDigits) ends,
    numeral_toDigits (by decide) (by decide)]

theorem read_hexadecimal (fits : unit ≤ encoding.maxUnit)
    (ends : ∀ character, rest.head? = some character → isHexDigit character = false) :
    read encoding ('x' :: ((hexDigits unit).toList ++ rest)) =
      ⟨1 + (hexDigits unit).toList.length, [unit], none⟩ := by
  rw [read_hexDigits unit ends, numeric_fits fits]

end EscapeReading

/-- A printable character of ASCII is a code unit of its own in every encoding. -/
theorem Encoding.units_ascii (encoding : Encoding) {character : Char}
    (isAscii : character.toNat < 0x80) : encoding.units character = [character.toNat] := by
  have notWide : character.toNat < 0x10000 := by omega
  cases encoding <;> simp [units, utf8Units, utf16Units, isAscii, notWide]

namespace UnitSpelling

/-- What a unit can be written as, and when. -/
inductive Spells (unit : Nat) : UnitSpelling → Prop
  | escaped {character : Char} (isMark : character = '"' ∨ character = '\\')
      (isUnit : character.toNat = unit) : Spells unit (.escaped character)
  | asItself {character : Char} (notQuote : character ≠ '"') (notEscape : character ≠ '\\')
      (inLine : isLineEnd character = false) (ascii : character.toNat < 0x80)
      (isUnit : character.toNat = unit) : Spells unit (.asItself character)
  | octal (small : unit < 0o1000) : Spells unit (.octal unit)
  | hexadecimal : Spells unit (.hexadecimal unit)

theorem not_isLineEnd_of_printed {character : Char}
    (isPrinted : isAsciiGraphic character = true ∨ character = ' ') : isLineEnd character = false := by
  rw [← Bool.not_eq_true]
  intro ends
  simp only [isLineEnd, Bool.or_eq_true, beq_iff_eq] at ends
  rcases ends with rfl | rfl <;> exact absurd isPrinted (by decide)

theorem ofUnit_spells (unit : Nat) : Spells unit (ofUnit unit) := by
  have isUnit (ascii : unit < 0x80) : (Char.ofNat unit).toNat = unit := by
    have decided : ∀ unit : Fin 0x80, (Char.ofNat unit.val).toNat = unit.val := by decide
    exact decided ⟨unit, ascii⟩
  simp only [ofUnit]
  split
  · rename_i isMark
    simp only [Bool.and_eq_true, Bool.or_eq_true, decide_eq_true_eq, beq_iff_eq] at isMark
    exact .escaped isMark.2 (isUnit isMark.1)
  · rename_i notMark
    simp only [Bool.and_eq_true, Bool.or_eq_true, decide_eq_true_eq, beq_iff_eq, not_and,
      not_or] at notMark
    split
    · rename_i isPlain
      simp only [Bool.and_eq_true, Bool.or_eq_true, decide_eq_true_eq, beq_iff_eq] at isPlain
      obtain ⟨ascii, isPrinted⟩ := isPlain
      have inLine := not_isLineEnd_of_printed isPrinted
      exact .asItself (notMark ascii).1 (notMark ascii).2 inLine (by rw [isUnit ascii]; exact ascii)
        (isUnit ascii)
    · split
      · rename_i small
        exact .octal small
      · exact .hexadecimal

@[simp] theorem toList_asItself (character : Char) :
    (asItself character).text.toList = [character] := by
  simp [text]

@[simp] theorem toList_escaped (character : Char) :
    (escaped character).text.toList = ['\\', character] := by
  simp [text]

@[simp] theorem toList_octal (unit : Nat) :
    (octal unit).text.toList = '\\' :: (octalDigits unit).toList := by
  simp [text]

@[simp] theorem toList_hexadecimal (unit : Nat) :
    (hexadecimal unit).text.toList = '\\' :: 'x' :: (hexDigits unit).toList := by
  simp [text, hexEscape]

/-- What a hexadecimal escape would not go on with. -/
theorem head_text {spelling : UnitSpelling} (extendsNot : spelling.extendsHex = false)
    {rest : List Char} {character : Char}
    (isFirst : (spelling.text.toList ++ rest).head? = some character) :
    isHexDigit character = false := by
  cases spelling with
  | asItself itself =>
    have same : itself = character := by simpa using isFirst
    exact same ▸ extendsNot
  | _ =>
    obtain rfl : '\\' = character := by simpa using isFirst
    rfl

end UnitSpelling

namespace QuotedReading

variable {encoding : Encoding} {unit index : Nat} {rest : List Char}

/-- The reading with one more unit in front, which takes so many characters. -/
def withUnit (length unit : Nat) (more : QuotedReading) : QuotedReading :=
  { more with length := length + more.length, units := unit :: more.units }

theorem read_itself {quote character : Char} (notQuote : character ≠ quote)
    (notEscape : character ≠ '\\') (inLine : isLineEnd character = false)
    (ascii : character.toNat < 0x80) :
    read encoding quote '\\' index (character :: rest) =
      (read encoding quote '\\' (index + 1) rest).withUnit 1 character.toNat := by
  rw [read.eq_def]
  simp [notQuote, notEscape, inLine, encoding.units_ascii ascii, withUnit]

theorem read_sequence {quote : Char} {length : Nat} {problem : Option LexicalProblem}
    (notQuote : '\\' ≠ quote)
    (escape : EscapeReading.read encoding rest = ⟨length, [unit], problem⟩) :
    read encoding quote '\\' index ('\\' :: rest) =
      let more := (read encoding quote '\\' (index + 1 + length) (rest.drop length)).withUnit
        (1 + length) unit
      { more with
        problems := (problem.map fun problem => (index, problem)).toList ++ more.problems } := by
  have notLineEnd : isLineEnd '\\' = false := rfl
  rw [read.eq_def]
  simp [notQuote, notLineEnd, escape, withUnit]

theorem read_escape {length : Nat}
    (escape : EscapeReading.read encoding rest = ⟨length, [unit], none⟩) :
    read encoding '"' '\\' index ('\\' :: rest) =
      (read encoding '"' '\\' (index + 1 + length) (rest.drop length)).withUnit (1 + length) unit :=
  read_sequence (by decide) escape

/-- A unit is read from what is written for it, if it fits, and if no hexadecimal digit comes behind a
hexadecimal escape. -/
theorem read_spelling {spelling : UnitSpelling} (spells : spelling.Spells unit)
    (fits : unit ≤ encoding.maxUnit)
    (ends : spelling.endsInHex = true →
      ∀ character, rest.head? = some character → isHexDigit character = false) (index : Nat) :
    read encoding '"' '\\' index (spelling.text.toList ++ rest) =
      (read encoding '"' '\\' (index + spelling.text.toList.length) rest).withUnit
        spelling.text.toList.length unit := by
  cases spells with
  | escaped isMark isUnit =>
    rw [← isUnit, UnitSpelling.toList_escaped]
    exact read_escape (EscapeReading.read_mark isMark)
  | asItself notQuote notEscape inLine ascii isUnit =>
    rw [← isUnit, UnitSpelling.toList_asItself]
    exact read_itself notQuote notEscape inLine ascii
  | octal small =>
    have length := length_octalDigits small
    have escape := EscapeReading.read_octal small fits rest
    rw [UnitSpelling.toList_octal, List.cons_append, read_escape escape, List.length_cons, length,
      List.drop_left' length]
  | hexadecimal =>
    have escape := EscapeReading.read_hexadecimal fits (ends rfl)
    have dropped : ('x' :: ((hexDigits unit).toList ++ rest)).drop
        (1 + (hexDigits unit).toList.length) = rest := by
      rw [Nat.add_comm, List.drop_succ_cons, List.drop_left]
    rw [UnitSpelling.toList_hexadecimal, List.cons_append, List.cons_append, read_escape escape,
      dropped]
    simp only [List.length_cons, Nat.add_assoc, Nat.add_comm 1]

end QuotedReading

end CFrontEnd
