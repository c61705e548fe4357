import Mathlib.Data.List.TakeWhile
import CFrontEnd.Proofs.Strings.Units
import CFrontEnd.Proofs.Text.Unicode

/-!
What stands between the quotes of a literal, as a list of items. An item is one character or one escape,
and has units of its own; what items are written and what units they have is told without the scanner.
-/

namespace CFrontEnd

/-- The escapes of one letter or mark, and the units that they name. -/
def simpleEscapes : List (Char × Nat) :=
  [('n', 0x0A), ('t', 0x09), ('r', 0x0D), ('a', 0x07), ('b', 0x08), ('f', 0x0C), ('v', 0x0B),
    ('\\', 0x5C), ('\'', 0x27), ('"', 0x22), ('?', 0x3F)]

inductive LiteralItem
  | raw (character : Char)
  | simple (letter : Char) (unit : Nat)
  | octal (digits : List Char)
  | hexadecimal (digits : List Char)
  /-- A character by its number, behind `u` or `U`. -/
  | universal (letter : Char) (digits : List Char) (character : Char)
  deriving DecidableEq, Repr

namespace LiteralItem

def text : LiteralItem → List Char
  | raw character => [character]
  | simple letter _ => ['\\', letter]
  | octal digits => '\\' :: digits
  | hexadecimal digits => '\\' :: 'x' :: digits
  | universal letter digits _ => '\\' :: letter :: digits

/-- The number that a numeric escape spells. -/
def number? : LiteralItem → Option Nat
  | octal digits => some (numeral 8 digits)
  | hexadecimal digits => some (numeral 16 digits)
  | _ => none

/-- The code units of an item. A number that is too large counts as the largest unit. -/
def units (encoding : Encoding) : LiteralItem → List Nat
  | raw character => encoding.units character
  | simple _ unit => [unit]
  | octal digits => [min (numeral 8 digits) encoding.maxUnit]
  | hexadecimal digits => [min (numeral 16 digits) encoding.maxUnit]
  | universal _ _ character => encoding.units character

/-- Only a numeric escape can be wrong, by being too large. -/
def problem? (encoding : Encoding) : LiteralItem → Option LexicalProblem
  | octal digits => if numeral 8 digits ≤ encoding.maxUnit then none else some .octalEscapeOutOfRange
  | hexadecimal digits =>
    if numeral 16 digits ≤ encoding.maxUnit then none else some .hexEscapeOutOfRange
  | _ => none

/-- The item can stand in a literal with such quotes. -/
inductive IsItem (quote : Char) : LiteralItem → Prop
  | raw {character : Char} (notQuote : character ≠ quote) (notEscape : character ≠ '\\')
      (inLine : isLineEnd character = false) : IsItem quote (.raw character)
  | simple {letter : Char} {unit : Nat} (known : (letter, unit) ∈ simpleEscapes) :
      IsItem quote (.simple letter unit)
  | octal {digits : List Char} (notEmpty : digits ≠ []) (few : digits.length ≤ 3)
      (areDigits : ∀ digit ∈ digits, isOctalDigit digit = true) : IsItem quote (.octal digits)
  | hexadecimal {digits : List Char} (notEmpty : digits ≠ [])
      (areDigits : ∀ digit ∈ digits, isHexDigit digit = true) : IsItem quote (.hexadecimal digits)
  | universal {letter : Char} {digits : List Char} {character : Char}
      (count : letter = 'u' ∧ digits.length = 4 ∨ letter = 'U' ∧ digits.length = 8)
      (areDigits : ∀ digit ∈ digits, isHexDigit digit = true)
      (names : numeral 16 digits = character.toNat) :
      IsItem quote (.universal letter digits character)

/-- The item does not go on with what comes next. -/
def EndsBefore (next : List Char) : LiteralItem → Prop
  | octal digits => digits.length < 3 → ∀ character, next.head? = some character →
      isOctalDigit character = false
  | hexadecimal _ => ∀ character, next.head? = some character → isHexDigit character = false
  | _ => True

end LiteralItem

def itemsText (items : List LiteralItem) : List Char := items.flatMap LiteralItem.text

def itemsUnits (encoding : Encoding) (items : List LiteralItem) : List Nat :=
  items.flatMap (LiteralItem.units encoding)

/-- The items are what stands between two such quotes. -/
inductive AreItems (quote : Char) : List LiteralItem → Prop
  | nil : AreItems quote []
  | cons {item : LiteralItem} {rest : List LiteralItem} (isItem : item.IsItem quote)
      (ends : item.EndsBefore (itemsText rest)) (behind : AreItems quote rest) :
      AreItems quote (item :: rest)

/-- The problems of items, each with the number of the character at which its item begins. -/
def itemProblems (encoding : Encoding) : Nat → List LiteralItem → List (Nat × LexicalProblem)
  | _, [] => []
  | index, item :: rest =>
    ((item.problem? encoding).map fun problem => (index, problem)).toList ++
      itemProblems encoding (index + item.text.length) rest

@[simp] theorem itemsText_nil : itemsText [] = [] := rfl

@[simp] theorem itemsText_cons (item : LiteralItem) (rest : List LiteralItem) :
    itemsText (item :: rest) = item.text ++ itemsText rest :=
  List.flatMap_cons

@[simp] theorem itemsUnits_nil (encoding : Encoding) : itemsUnits encoding [] = [] := rfl

@[simp] theorem itemsUnits_cons (encoding : Encoding) (item : LiteralItem) (rest : List LiteralItem) :
    itemsUnits encoding (item :: rest) = item.units encoding ++ itemsUnits encoding rest :=
  List.flatMap_cons

/-! ## Reading one escape -/

namespace EscapeReading

variable {encoding : Encoding} {digits next : List Char}

theorem read_simple {letter : Char} {unit : Nat} (known : (letter, unit) ∈ simpleEscapes)
    (rest : List Char) : read encoding (letter :: rest) = ⟨1, [unit], none⟩ := by
  have decided : ∀ entry ∈ simpleEscapes,
      isLineEnd entry.1 = false ∧ simple? entry.1 = some entry.2 := by
    decide
  obtain ⟨inLine, isSimple⟩ := decided _ known
  simp [read, inLine, isSimple]

theorem universal_named {character : Char} (areDigits : ∀ digit ∈ digits, isHexDigit digit = true)
    (names : numeral 16 digits = character.toNat) (next : List Char) :
    universal encoding digits.length (digits ++ next) =
      ⟨1 + digits.length, encoding.units character, none⟩ := by
  have run : digits.takeWhile isHexDigit = digits := List.takeWhile_eq_self_iff.mpr areDigits
  simp [universal, run, names, scalarValue?_toNat]

theorem read_universal {letter character : Char}
    (count : letter = 'u' ∧ digits.length = 4 ∨ letter = 'U' ∧ digits.length = 8)
    (areDigits : ∀ digit ∈ digits, isHexDigit digit = true)
    (names : numeral 16 digits = character.toNat) (next : List Char) :
    read encoding (letter :: (digits ++ next)) =
      ⟨1 + digits.length, encoding.units character, none⟩ := by
  have isName : universal encoding digits.length (digits ++ next) = _ :=
    universal_named areDigits names next
  rcases count with ⟨rfl, length⟩ | ⟨rfl, length⟩
  · rw [← isName, length]
    rfl
  · rw [← isName, length]
    rfl

end EscapeReading

/-- Every item but a character by itself is an escape, and is read as its units. -/
theorem LiteralItem.IsItem.raw_or_escape {quote : Char} {item : LiteralItem}
    (isItem : item.IsItem quote) :
    (∃ character, item = .raw character) ∨ ∃ body, item.text = '\\' :: body ∧
      ∀ encoding next, item.EndsBefore next → EscapeReading.read encoding (body ++ next) =
        ⟨body.length, item.units encoding, item.problem? encoding⟩ := by
  cases isItem with
  | raw _ _ _ => exact .inl ⟨_, rfl⟩
  | @simple letter unit known =>
    exact .inr ⟨[letter], rfl, fun _ next _ => EscapeReading.read_simple known next⟩
  | @octal digits notEmpty few areDigits =>
    refine .inr ⟨digits, rfl, fun encoding next ends => ?_⟩
    rw [EscapeReading.read_octalRun notEmpty few areDigits ends, EscapeReading.numeric_eq]
    rfl
  | @hexadecimal digits notEmpty areDigits =>
    refine .inr ⟨'x' :: digits, rfl, fun encoding next ends => ?_⟩
    rw [List.cons_append, EscapeReading.read_hexRun notEmpty areDigits ends,
      EscapeReading.numeric_eq, Nat.add_comm]
    rfl
  | @universal letter digits character count areDigits names =>
    refine .inr ⟨letter :: digits, rfl, fun encoding next _ => ?_⟩
    rw [List.cons_append, EscapeReading.read_universal count areDigits names, Nat.add_comm]
    rfl

/-! ## Reading all items -/

namespace QuotedReading

variable {encoding : Encoding} {quote : Char} {item : LiteralItem} {items : List LiteralItem}

theorem read_item (isItem : item.IsItem quote) (quoteApart : quote ≠ '\\') (index : Nat)
    {rest : List Char} (ends : item.EndsBefore rest) :
    read encoding quote '\\' index (item.text ++ rest) =
      let more := read encoding quote '\\' (index + item.text.length) rest
      { length := item.text.length + more.length
        units := item.units encoding ++ more.units
        terminated := more.terminated
        problems := ((item.problem? encoding).map fun problem => (index, problem)).toList ++
          more.problems } := by
  rcases isItem.raw_or_escape with ⟨character, rfl⟩ | ⟨body, isText, isRead⟩
  · cases isItem with
    | raw notQuote notEscape inLine =>
      rw [LiteralItem.text, List.singleton_append, read.eq_def]
      simp [notQuote, notEscape, inLine, LiteralItem.units, LiteralItem.problem?]
  · have inLine : isLineEnd '\\' = false := rfl
    rw [isText, List.cons_append, read.eq_def]
    simp [quoteApart.symm, inLine, isRead encoding rest ends, Nat.add_assoc, Nat.add_comm 1]

/-- No escape goes on with the quote behind it. -/
theorem endsBefore_quote (isQuote : quote = '"' ∨ quote = '\'')
    (ends : item.EndsBefore (itemsText items)) (next : List Char) :
    item.EndsBefore (itemsText items ++ quote :: next) := by
  have head {holds : Char → Bool} (notHeld : holds quote = false)
      (stops : ∀ character, (itemsText items).head? = some character → holds character = false)
      (character : Char) (isNext : (itemsText items ++ quote :: next).head? = some character) :
      holds character = false := by
    cases isText : itemsText items with
    | nil =>
      rw [isText] at isNext
      obtain rfl := Option.some.inj isNext
      exact notHeld
    | cons first rest =>
      rw [isText] at isNext stops
      exact stops character isNext
  have notOctal : isOctalDigit quote = false := by rcases isQuote with rfl | rfl <;> rfl
  have notHex : isHexDigit quote = false := by rcases isQuote with rfl | rfl <;> rfl
  cases item with
  | octal digits => exact fun fewer => head notOctal (ends fewer)
  | hexadecimal digits => exact head notHex ends
  | _ => trivial

theorem read_items (encoding : Encoding) (areItems : AreItems quote items)
    (isQuote : quote = '"' ∨ quote = '\'') (index : Nat) (next : List Char) :
    read encoding quote '\\' index (itemsText items ++ quote :: next) =
      ⟨(itemsText items).length + 1, itemsUnits encoding items, true,
        itemProblems encoding index items⟩ := by
  have quoteApart : quote ≠ '\\' := by rcases isQuote with rfl | rfl <;> decide
  induction areItems generalizing index with
  | nil =>
    rw [itemsText_nil, List.nil_append, read.eq_def]
    simp [itemProblems]
  | cons isItem ends behind ih =>
    rw [itemsText_cons, List.append_assoc,
      read_item isItem quoteApart index (endsBefore_quote isQuote ends next), ih]
    simp [itemProblems, Nat.add_assoc]

end QuotedReading

end CFrontEnd
