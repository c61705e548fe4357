import Mathlib.Data.List.Induction
import Mathlib.Data.Nat.Digits.Defs
import CFrontEnd.Proofs.Characters.RoundTrip
import CFrontEnd.Proofs.Literals.Items

/-!
Literals as the scanner finds them: one token with the units of its items, and one problem for each escape
that is too large, at the place of the escape.
-/

namespace CFrontEnd

/-- A literal with its prefix and its quotes. -/
def literalText (encoding : Encoding) (quote : Char) (body : List Char) : String :=
  String.ofList (encoding.spelling.toList ++ quote :: (body ++ [quote]))

/-- The problems of items that stand behind the characters of `front`. -/
def itemDiagnostics (name : String) (encoding : Encoding) :
    List Char → List LiteralItem → List Diagnostic
  | _, [] => []
  | front, item :: rest =>
    ((item.problem? encoding).map fun problem =>
        ⟨.lexical, ⟨name, 1, front.length + 1, byteLength front⟩, problem.message⟩).toList ++
      itemDiagnostics name encoding (front ++ item.text) rest

/-- The number that a character constant is. -/
def packedValue (encoding : Encoding) (units : List Nat) : Nat :=
  if encoding.isNarrow then Nat.ofDigits 0x100 units.reverse % 0x100000000
  else units.getLast?.getD 0

theorem toList_literalText (encoding : Encoding) (quote : Char) (body : List Char) :
    (literalText encoding quote body).toList =
      encoding.spelling.toList ++ quote :: (body ++ [quote]) :=
  String.toList_ofList

/-! ## Units -/

theorem Encoding.units_ne_nil (encoding : Encoding) (character : Char) :
    encoding.units character ≠ [] := by
  cases encoding with
  | plain | utf8 =>
    simp only [units, utf8Units]
    split_ifs <;> exact List.cons_ne_nil _ _
  | utf16 =>
    simp only [units, utf16Units]
    split_ifs <;> exact List.cons_ne_nil _ _
  | wide | utf32 => exact List.cons_ne_nil _ _

theorem LiteralItem.units_ne_nil (encoding : Encoding) (item : LiteralItem) :
    item.units encoding ≠ [] := by
  cases item with
  | raw character => exact encoding.units_ne_nil character
  | universal letter digits character => exact encoding.units_ne_nil character
  | _ => exact List.cons_ne_nil _ _

theorem itemsUnits_ne_nil (encoding : Encoding) {items : List LiteralItem} (notEmpty : items ≠ []) :
    itemsUnits encoding items ≠ [] := by
  obtain ⟨item, rest, rfl⟩ := List.exists_cons_of_ne_nil notEmpty
  rw [itemsUnits_cons]
  exact List.append_ne_nil_of_left_ne_nil (item.units_ne_nil encoding) _

/-- Bytes are packed as digits, of which the last ones are kept. -/
theorem QuotedReading.characterValue_eq {encoding : Encoding} {units : List Nat}
    (fit : ∀ unit ∈ units, unit ≤ encoding.maxUnit) :
    characterValue encoding units = packedValue encoding units := by
  unfold characterValue packedValue
  split
  · rename_i isNarrow
    have isByte : encoding.maxUnit = 0xFF := by
      cases encoding <;> first | rfl | cases isNarrow
    rw [isByte] at fit
    induction units using List.reverseRecOn with
    | nil => rfl
    | append_singleton units unit ih =>
      obtain ⟨areBytes, isLast⟩ := List.forall_mem_append.mp fit
      have small : unit % 0x100 = unit := Nat.mod_eq_of_lt (by have := isLast unit (by simp); omega)
      rw [List.foldl_concat, ih areBytes, small, List.reverse_concat, Nat.ofDigits_cons]
      omega
  · rw [List.getLastD_eq_getLast?]

/-! ## Places -/

theorem inLine_of_isHexDigit {digits : List Char}
    (areDigits : ∀ digit ∈ digits, isHexDigit digit = true) : InLine digits := by
  have decided : ∀ value : Fin 0x80, isHexDigit (Char.ofNat value.val) = true →
      isLineEnd (Char.ofNat value.val) = false := by
    decide
  intro digit inDigits
  have isDigit := areDigits digit inDigits
  exact of_isAscii (fun digit => isHexDigit digit = true → isLineEnd digit = false) decided
    (ascii_of_isHexDigit isDigit) isDigit

theorem LiteralItem.IsItem.inLine {quote : Char} {item : LiteralItem} (isItem : item.IsItem quote) :
    InLine item.text := by
  have escape {tail : List Char} (tailInLine : InLine tail) : InLine ('\\' :: tail) :=
    inLine_cons.mpr ⟨rfl, tailInLine⟩
  cases isItem with
  | raw _ _ inLine => exact List.forall_mem_singleton.mpr inLine
  | @simple letter unit known =>
    have decided : ∀ entry ∈ simpleEscapes, isLineEnd entry.1 = false := by decide
    exact escape (List.forall_mem_singleton.mpr (decided _ known))
  | octal _ _ areDigits =>
    exact escape (inLine_of_isHexDigit fun digit inDigits =>
      isHexDigit_of_isOctalDigit (areDigits digit inDigits))
  | hexadecimal _ areDigits => exact escape (inLine_cons.mpr ⟨rfl, inLine_of_isHexDigit areDigits⟩)
  | @universal letter digits character count areDigits _ =>
    have letterInLine : isLineEnd letter = false := by rcases count with ⟨rfl, _⟩ | ⟨rfl, _⟩ <;> rfl
    exact escape (inLine_cons.mpr ⟨letterInLine, inLine_of_isHexDigit areDigits⟩)

theorem Encoding.inLine_spelling (encoding : Encoding) : InLine encoding.spelling.toList := by
  cases encoding <;> simp [spelling, InLine, isLineEnd]

theorem Scanner.placed_itemProblems {quote : Char} {items : List LiteralItem}
    (areItems : AreItems quote items) {scanner : Scanner} {name : String}
    {front back : List Char} {begins : Bool} (inLine : InLine front)
    (start : scanner.reader =
      ⟨front ++ (itemsText items ++ back), { file := name, atLineStart := begins }⟩)
    (encoding : Encoding) (segment : Segment) :
    (itemProblems encoding front.length items).map (scanner.placed segment) =
      itemDiagnostics name encoding front items := by
  induction areItems generalizing front with
  | nil => rfl
  | @cons item rest isItem ends behind ih =>
    have itemPlace (problem : LexicalProblem) : scanner.placed segment (front.length, problem) =
        ⟨.lexical, ⟨name, 1, front.length + 1, byteLength front⟩, problem.message⟩ := by
      rw [placed, segmentStart, start, Reader.advance_inLine inLine, Place.location, Nat.zero_add,
        Nat.add_comm 1]
    have behindInLine : InLine (front ++ item.text) := inLine_append.mpr ⟨inLine, isItem.inLine⟩
    -- for the items behind it, this one is text that has been passed
    have others := ih behindInLine (by rw [start, itemsText_cons]; simp)
    rw [List.length_append] at others
    rw [itemProblems, itemDiagnostics, List.map_append, others]
    cases item.problem? encoding with
    | none => rfl
    | some problem => rw [Option.map_some, Option.map_some, Option.toList_some, Option.toList_some,
        List.map_singleton, itemPlace]

/-! ## Segments -/

namespace Segment

variable {dialect : Dialect} {encoding : Encoding} {items : List LiteralItem}

theorem quotedAt?_stringItems (areItems : AreItems '"' items) (before : Nat) (next : List Char) :
    quotedAt? (cLanguage dialect) encoding before ('"' :: (itemsText items ++ '"' :: next)) =
      some { kind := .token (.literal .string) (some (.string (itemsUnits encoding items) encoding)),
             length := before + ((itemsText items).length + 1) + 1,
             problems := itemProblems encoding (before + 1) items } := by
  have read : QuotedReading.read encoding '"' (cLanguage dialect).marks.escape (before + 1)
      (itemsText items ++ '"' :: next) = _ := QuotedReading.read_items _ areItems (.inl rfl) _ next
  have isQuote : (cLanguage dialect).marks.stringQuote = '"' := rfl
  simp [quotedAt?, read, isQuote, QuotedReading.asString]

theorem quotedAt?_characterItems (areItems : AreItems '\'' items) (notEmpty : items ≠ []) (before : Nat)
    (next : List Char) :
    quotedAt? (cLanguage dialect) encoding before ('\'' :: (itemsText items ++ '\'' :: next)) =
      some { kind := .token (.literal .character)
               (some (.character (packedValue encoding (itemsUnits encoding items)) encoding)),
             length := before + ((itemsText items).length + 1) + 1,
             problems := itemProblems encoding (before + 1) items } := by
  have read := QuotedReading.read_items encoding areItems (.inr rfl) (before + 1) next
  have fit : ∀ unit ∈ (QuotedReading.read encoding '\'' '\\' (before + 1)
      (itemsText items ++ '\'' :: next)).units, unit ≤ encoding.maxUnit :=
    QuotedReading.units_read_le _ _ _ _
  rw [read] at fit
  rw [quotedAt?_of_read read]
  simp [QuotedReading.asCharacter, QuotedReading.characterValue_eq fit,
    itemsUnits_ne_nil encoding notEmpty]

end Segment

/-! ## Tokens -/

section Clean

variable {dialect : Dialect} {encoding : Encoding} {items : List LiteralItem}

theorem itemProblems_eq_nil (clean : ∀ item ∈ items, item.problem? encoding = none) (index : Nat) :
    itemProblems encoding index items = [] := by
  induction items generalizing index with
  | nil => rfl
  | cons item rest ih =>
    obtain ⟨noProblem, restClean⟩ := List.forall_mem_cons.mp clean
    rw [itemProblems, noProblem, ih restClean]
    rfl

def scannedItems (encoding : Encoding) (items : List LiteralItem) : ScannedString :=
  ⟨literalText encoding '"' (itemsText items), itemsUnits encoding items, encoding⟩

theorem ScansAs.literalItems (areItems : AreItems '"' items)
    (clean : ∀ item ∈ items, item.problem? encoding = none) (next : List Char) :
    ScansAs dialect (literalText encoding '"' (itemsText items)).toList
      [(scannedItems encoding items).word] next := by
  have found : Segment.quotedAt? (cLanguage dialect) encoding encoding.spelling.toList.length
      ('"' :: (itemsText items ++ '"' :: next)) = _ :=
    Segment.quotedAt?_stringItems areItems _ next
  rw [itemProblems_eq_nil clean] at found
  rw [toList_literalText]
  exact .quoted found

end Clean

theorem tokenize_items {dialect : Dialect} {encoding : Encoding} {quote : Char}
    {items : List LiteralItem} {kind : TokenKind} {value : Option Literal}
    (isQuote : quote = '"' ∨ quote = '\'') (areItems : AreItems quote items)
    (found : Segment.quotedAt? (cLanguage dialect) encoding encoding.spelling.toList.length
      (quote :: (itemsText items ++ [quote])) =
        some { kind := .token kind value,
               length := encoding.spelling.toList.length + ((itemsText items).length + 1) + 1,
               problems := itemProblems encoding (encoding.spelling.toList.length + 1) items })
    (name : String) (diagnostics : Diagnostics) :
    let text := literalText encoding quote (itemsText items)
    ∃ tokens,
      tokenize (cLanguage dialect) ⟨name, text⟩ diagnostics = (tokens, diagnostics.append
        ⟨(itemDiagnostics name encoding (encoding.spelling.toList ++ [quote]) items).toArray⟩) ∧
      tokens.body.toList.map Token.word = [⟨kind, text, value⟩] := by
  intro text
  have isText : text.toList = encoding.spelling.toList ++ quote :: (itemsText items ++ [quote]) :=
    toList_literalText encoding quote (itemsText items)
  obtain ⟨tokens, tokenized, isWord⟩ := tokenize_quoted isQuote isText found
    (by rw [isText]; simp; omega) rfl name diagnostics
  have quoteInLine : InLine [quote] := by rcases isQuote with rfl | rfl <;> simp [InLine, isLineEnd]
  have inLine : InLine (encoding.spelling.toList ++ [quote]) :=
    inLine_append.mpr ⟨encoding.inLine_spelling, quoteInLine⟩
  have start : (Scanner.ofBuffer ⟨name, text⟩ diagnostics).reader =
      ⟨encoding.spelling.toList ++ [quote] ++ (itemsText items ++ [quote]), { file := name }⟩ := by
    rw [Scanner.ofBuffer, SourceBuffer.characters, isText, List.append_assoc, List.singleton_append]
  have placed := Scanner.placed_itemProblems areItems inLine start encoding
  simp only [List.length_append, List.length_singleton] at placed
  rw [Scanner.problemsOf, placed] at tokenized
  exact ⟨tokens, tokenized, isWord⟩

/-- Any items between double quotes, behind any prefix, are one string literal. Its units are those of
the items one after the other, and its problems are its escapes that are too large. Between single
quotes, if there are any, they are one character constant, which is the number that the units spell. -/
theorem tokenize_literal (dialect : Dialect) (encoding : Encoding) (items : List LiteralItem)
    (name : String) (diagnostics : Diagnostics) :
    (AreItems '"' items →
      let text := literalText encoding '"' (itemsText items)
      ∃ tokens,
        tokenize (cLanguage dialect) ⟨name, text⟩ diagnostics = (tokens, diagnostics.append
          ⟨(itemDiagnostics name encoding (encoding.spelling.toList ++ ['"']) items).toArray⟩) ∧
        tokens.body.toList.map Token.word =
          [⟨.literal .string, text, some (.string (itemsUnits encoding items) encoding)⟩]) ∧
    (AreItems '\'' items → items ≠ [] →
      let text := literalText encoding '\'' (itemsText items)
      ∃ tokens,
        tokenize (cLanguage dialect) ⟨name, text⟩ diagnostics = (tokens, diagnostics.append
          ⟨(itemDiagnostics name encoding (encoding.spelling.toList ++ ['\'']) items).toArray⟩) ∧
        tokens.body.toList.map Token.word =
          [⟨.literal .character, text,
            some (.character (packedValue encoding (itemsUnits encoding items)) encoding)⟩]) := by
  constructor
  · intro areItems
    exact tokenize_items (.inl rfl) areItems (Segment.quotedAt?_stringItems areItems _ []) name diagnostics
  · intro areItems notEmpty
    exact tokenize_items (.inr rfl) areItems (Segment.quotedAt?_characterItems areItems notEmpty _ []) name
      diagnostics

/-- One item of each form. Of the eight bytes of a character constant the last four are left. -/
theorem tokenize_literal_mixed :
    let items : List LiteralItem := [.raw 'é', .simple 'n' 0x0A, .octal ['7', '7', '7'],
      .hexadecimal ['1', '0', '0'], .universal 'u' ['2', '0', 'a', 'c'] '€']
    let problems : Diagnostics := ⟨#[
      ⟨.lexical, ⟨"<input>", 1, 5, 5⟩, "octal escape sequence out of range"⟩,
      ⟨.lexical, ⟨"<input>", 1, 9, 9⟩, "hex escape sequence out of range"⟩]⟩
    (AreItems '"' items ∧ ∃ tokens,
      tokenize (cLanguage gnuC17) ⟨"<input>", "\"é\\n\\777\\x100\\u20ac\""⟩ .empty =
        (tokens, problems) ∧
      tokens.body.toList.map Token.word = [⟨.literal .string, "\"é\\n\\777\\x100\\u20ac\"",
        some (.string [0xC3, 0xA9, 0x0A, 0xFF, 0xFF, 0xE2, 0x82, 0xAC] .plain)⟩]) ∧
    AreItems '\'' items ∧ items ≠ [] ∧ ∃ tokens,
      tokenize (cLanguage gnuC17) ⟨"<input>", "'é\\n\\777\\x100\\u20ac'"⟩ .empty =
        (tokens, problems) ∧
      tokens.body.toList.map Token.word =
        [⟨.literal .character, "'é\\n\\777\\x100\\u20ac'", some (.character 0xFFE282AC .plain)⟩] := by
  intro items problems
  have areItems {quote : Char} (apart : 'é' ≠ quote) : AreItems quote items := by
    have hexEnds (rest : List Char) (character : Char) (isNext : ('\\' :: rest).head? = some character) :
        isHexDigit character = false := by
      rw [← Option.some.inj isNext]
      rfl
    refine .cons (.raw apart (by decide) (by decide)) trivial ?_
    refine .cons (.simple (by decide)) trivial ?_
    refine .cons (.octal (by decide) (by decide) (List.all_eq_true.mp (by decide)))
      (fun fewer => absurd fewer (by decide)) ?_
    refine .cons (.hexadecimal (by decide) (List.all_eq_true.mp (by decide))) (hexEnds _) ?_
    exact .cons (.universal (.inl ⟨rfl, rfl⟩) (List.all_eq_true.mp (by decide)) (by decide)) trivial .nil
  have isString : AreItems '"' items := areItems (by decide)
  have isCharacter : AreItems '\'' items := areItems (by decide)
  have notEmpty : items ≠ [] := List.cons_ne_nil _ _
  have isPacked : packedValue .plain (itemsUnits .plain items) = 0xFFE282AC := by decide
  have literal := tokenize_literal gnuC17 .plain items "<input>" .empty
  rw [isPacked] at literal
  exact ⟨⟨isString, literal.1 isString⟩, isCharacter, notEmpty, literal.2 isCharacter notEmpty⟩

end CFrontEnd
