import CFrontEnd.Proofs.Language.Tables
import CFrontEnd.Proofs.Scan.Tokens

/-!
Segments that are tokens, and when a text begins with one.
-/

namespace CFrontEnd

/-- The segment is a token at the beginning of the text, within one line, with problems of its own. -/
structure IsTokenAhead (input : List Char) (segment : Segment) : Prop where
  isToken : ∃ kind value, segment.kind = .token kind value ∧ kind ≠ .endOfFile
  starts : StartsInLine (input.take segment.length) input
  problems : ∀ problem ∈ segment.problems, problem.2.concernsLayout = false

theorem beginsWith_iff {symbol : String} {input : List Char} :
    beginsWith symbol input = true ↔ symbol ≠ "" ∧ symbol.toList <+: input := by
  simp [beginsWith]

theorem length_pos_of_beginsWith {symbol : String} {input : List Char}
    (begins : beginsWith symbol input = true) : 0 < symbol.length := by
  have notEmpty := (beginsWith_iff.mp begins).1
  rw [← String.length_toList, List.length_pos_iff]
  simpa using notEmpty

/-- No symbol of C has a line end in it. -/
theorem cSymbols_inLine : ∀ symbol ∈ cSymbols, InLine symbol.toList := by
  have decided : ∀ symbol ∈ cSymbols, symbol.toList.all (fun character => !isLineEnd character) := by
    decide
  intro symbol isSymbol character inSymbol
  simpa using List.all_eq_true.mp (decided symbol isSymbol) character inSymbol

theorem cSymbols_length_pos : ∀ symbol ∈ cSymbols, 0 < symbol.length := by decide

namespace Segment

variable {dialect : Dialect} {first : Char} {rest : List Char} {segment : Segment}

/-! ## Numbers -/

theorem number_starts (dialect : Dialect) (input : List Char) :
    StartsInLine (NumberText.read (cLanguage dialect) input).characters input :=
  NumberText.characters_start rfl rfl input

theorem numberAt?_shape {language : Language} (found : numberAt? language first rest = some segment) :
    let number := NumberText.read language (first :: rest)
    (∃ kind value, segment.kind = .token (.literal kind) value) ∧
      segment.length = number.characters.length ∧
      segment.problems = (number.judge language.numbers).2.map fun problem => (0, problem) := by
  unfold numberAt? at found
  split at found
  · simp only at found
    split at found
    · rw [← Option.some.inj found]
      exact ⟨⟨_, _, rfl⟩, rfl, rfl⟩
    · cases found
  · cases found

theorem numberAt?_some (found : numberAt? (cLanguage dialect) first rest = some segment) :
    IsTokenAhead (first :: rest) segment := by
  obtain ⟨⟨kind, value, isNumber⟩, length, problems⟩ := numberAt?_shape found
  have starts := number_starts dialect (first :: rest)
  refine ⟨⟨_, _, isNumber, by simp⟩, ?_, ?_⟩
  · rwa [length, starts.take_length]
  · rw [problems]
    simpa using NumberText.judge_problems _ _

/-- The radix is ten, or told by a zero and a letter. -/
theorem announcedRadix_cases (forms : NumberForms) (input : List Char) :
    NumberText.announcedRadix forms input = (10, 0) ∨ ∃ mark rest, input = '0' :: mark :: rest ∧
      ((mark = 'x' ∨ mark = 'X') ∧ NumberText.announcedRadix forms input = (16, 2) ∨
        (mark = 'b' ∨ mark = 'B') ∧ forms.binary = true ∧
          NumberText.announcedRadix forms input = (2, 2)) := by
  unfold NumberText.announcedRadix
  split
  · rename_i mark digit rest
    split
    · rename_i isHex
      simp only [Bool.and_eq_true, Bool.or_eq_true, beq_iff_eq] at isHex
      exact .inr ⟨mark, digit :: rest, rfl, .inl ⟨isHex.1.1, rfl⟩⟩
    · split
      · rename_i isBinary
        simp only [Bool.and_eq_true, Bool.or_eq_true, beq_iff_eq] at isBinary
        exact .inr ⟨mark, digit :: rest, rfl, .inr ⟨isBinary.1.1, isBinary.1.2, rfl⟩⟩
      · exact .inl rfl
  · exact .inl rfl

theorem announcedRadix_length (forms : NumberForms) (input : List Char) :
    NumberText.announcedRadix forms input = (10, 0) ∨
      (NumberText.announcedRadix forms input).2 = 2 := by
  rcases announcedRadix_cases forms input with decimal | ⟨_, _, _, ⟨_, marked⟩ | ⟨_, _, marked⟩⟩
  · exact .inl decimal
  · exact .inr (by rw [marked])
  · exact .inr (by rw [marked])

theorem number_length_pos {language : Language} (isDigit : first.isDigit = true) :
    0 < (NumberText.read language (first :: rest)).characters.length := by
  simp only [NumberText.characters, NumberText.body, NumberText.read, List.length_append]
  rcases announcedRadix_length language.numbers (first :: rest) with decimal | marked
  · have digit : NumberText.isDigitOf 10 first = true := isDigit
    simp only [decimal, List.drop_zero, List.takeWhile_cons_of_pos digit, List.length_cons]
    omega
  · rw [marked, List.take_succ_cons, List.length_cons]
    omega

theorem numberAt?_none (missing : numberAt? (cLanguage dialect) first rest = none) :
    first.isDigit = false := by
  cases isDigit : first.isDigit with
  | false => rfl
  | true =>
    have starts : startsNumber (cLanguage dialect) first rest = true := by
      simp [startsNumber, cLanguage, Language.Declaration.build, isDigit]
    simp [numberAt?, starts, number_length_pos isDigit] at missing

/-! ## Literals in quotes -/

/-- What can be wrong with a literal as a whole, which is told at its beginning. -/
def literalProblems : List (Nat × LexicalProblem) :=
  [(0, .unterminatedString), (0, .unterminatedCharacter), (0, .emptyCharacter)]

theorem quotedAt?_shape {language : Language} {encoding : Encoding} {before : Nat} {quote : Char}
    (found : quotedAt? language encoding before (quote :: rest) = some segment) :
    let reading := QuotedReading.read encoding quote language.marks.escape (before + 1) rest
    (quote = language.marks.stringQuote ∨ quote = language.marks.characterQuote) ∧
      (∃ kind value, segment.kind = .token (.literal kind) value) ∧
      segment.length = before + reading.length + 1 ∧
      ∃ last, segment.problems = reading.problems ++ last ∧ ∀ problem ∈ last, problem ∈ literalProblems := by
  simp only [quotedAt?] at found
  split at found
  · rename_i isString
    rw [← Option.some.inj found]
    refine ⟨.inl (eq_of_beq isString), ⟨_, _, rfl⟩, rfl, _, rfl, ?_⟩
    split <;> simp [literalProblems]
  · split at found
    · rename_i isCharacter
      rw [← Option.some.inj found]
      refine ⟨.inr (eq_of_beq isCharacter), ⟨_, _, rfl⟩, rfl, _, rfl, ?_⟩
      split
      · simp [literalProblems]
      · split <;> simp [literalProblems]
    · cases found

theorem quotedAt?_some {encoding : Encoding} {word input : List Char} (inLine : InLine word)
    (found : quotedAt? (cLanguage dialect) encoding word.length input = some segment) :
    IsTokenAhead (word ++ input) segment := by
  cases input with
  | nil => cases found
  | cons quote rest =>
    obtain ⟨isQuote, ⟨kind, value, isLiteral⟩, length, last, problems, atStart⟩ := quotedAt?_shape found
    have quoteInLine : isLineEnd quote = false := by
      rcases isQuote with rfl | rfl <;> rfl
    refine ⟨⟨_, _, isLiteral, by simp⟩, ?_, ?_⟩
    · have wordStarts : StartsInLine ((word ++ quote :: rest).take word.length)
          (word ++ quote :: rest) := by
        rw [List.take_left]
        exact ⟨List.prefix_append _ _, inLine⟩
      rw [length, Nat.add_assoc]
      refine wordStarts.take_add ?_
      rw [List.drop_left, Nat.add_comm]
      exact .take_cons quoteInLine (QuotedReading.read_starts encoding quoteInLine _ rest)
    · rw [problems, List.forall_mem_append]
      refine ⟨QuotedReading.read_problems encoding quote _ _ rest, fun problem inLast => ?_⟩
      have wholly : ∀ problem ∈ literalProblems, problem.2.concernsLayout = false := by decide
      exact wholly problem (atStart problem inLast)

theorem quotedAt?_none
    (missing : quotedAt? (cLanguage dialect) .plain 0 (first :: rest) = none) :
    first ≠ '"' ∧ first ≠ '\'' := by
  constructor
  · rintro rfl
    simp [quotedAt?, cLanguage, Language.Declaration.build] at missing
  · rintro rfl
    simp [quotedAt?, cLanguage, Language.Declaration.build] at missing

/-! ## Words -/

theorem continues_of_starts (starts : (cLanguage dialect).classes.startsIdentifier first = true) :
    (cLanguage dialect).classes.continuesIdentifier first = true := by
  change (first == '_' || first.isAlpha) = true at starts
  change (first == '_' || first.isAlphanum) = true
  simp only [Char.isAlphanum, Bool.or_eq_true] at starts ⊢
  rcases starts with isUnderscore | isLetter
  · exact .inl isUnderscore
  · exact .inr (.inl isLetter)

theorem word_starts (rest : List Char)
    (starts : (cLanguage dialect).classes.startsIdentifier first = true) :
    StartsInLine (first :: rest.takeWhile (cLanguage dialect).classes.continuesIdentifier)
      (first :: rest) := by
  rw [← List.takeWhile_cons_of_pos (continues_of_starts starts)]
  exact .takeWhile rfl rfl _

theorem wordAt?_some (found : wordAt? (cLanguage dialect) first rest = some segment) :
    IsTokenAhead (first :: rest) segment := by
  unfold wordAt? at found
  split at found
  · rename_i starts
    have inLine := word_starts rest starts
    simp only [Option.orElse_eq_orElse, Option.orElse_eq_or] at found
    rcases Option.or_eq_some_iff.mp found with isLiteral | ⟨_, isWord⟩
    · obtain ⟨encoding, _, isQuoted⟩ := Option.bind_eq_some_iff.mp isLiteral
      have ahead := quotedAt?_some inLine.2 isQuoted
      rwa [List.length_cons, Nat.add_sub_cancel, List.cons_append,
        List.prefix_iff_eq_append.mp (List.takeWhile_prefix _)] at ahead
    · rw [← Option.some.inj isWord]
      refine ⟨⟨_, _, rfl, ?_⟩, ?_, by simp⟩
      · split <;> simp
      · rwa [inLine.take_length]
  · cases found

theorem wordAt?_none (missing : wordAt? (cLanguage dialect) first rest = none) :
    first ≠ '_' ∧ first.isAlpha = false := by
  unfold wordAt? at missing
  split at missing
  · simp at missing
  · rename_i notStarts
    simpa [cLanguage, Language.Declaration.build] using notStarts

/-! ## Symbols -/

/-- A symbol is an operator unless there is a longer punctuator, and else a punctuator. -/
inductive SymbolRule (language : Language) (input : List Char) : TokenKind → String → Prop
  | operator {entry : OperatorEntry} (matched : language.matchOperator? input = some entry)
      (noLonger : ∀ other, language.matchPunctuator? input = some other →
        other.symbol.utf8ByteSize ≤ entry.symbol.utf8ByteSize) :
      SymbolRule language input (.operator entry.operator) entry.symbol
  | punctuator {entry : PunctuatorEntry} (matched : language.matchPunctuator? input = some entry)
      (longer : ∀ other, language.matchOperator? input = some other →
        other.symbol.utf8ByteSize < entry.symbol.utf8ByteSize) :
      SymbolRule language input (.punctuator entry.punctuator) entry.symbol

theorem symbolKind?_rule {language : Language} {kind : TokenKind} {symbol : String}
    {input : List Char} (found : symbolKind? language input = some (kind, symbol)) :
    SymbolRule language input kind symbol := by
  unfold symbolKind? at found
  cases operator : language.matchOperator? input with
  | none =>
    cases punctuator : language.matchPunctuator? input with
    | none => simp [operator, punctuator] at found
    | some entry =>
      simp only [operator, punctuator, Option.some.injEq, Prod.mk.injEq] at found
      obtain ⟨rfl, rfl⟩ := found
      exact .punctuator punctuator (by simp [operator])
  | some entry =>
    cases punctuator : language.matchPunctuator? input with
    | none =>
      simp only [operator, punctuator, Option.some.injEq, Prod.mk.injEq] at found
      obtain ⟨rfl, rfl⟩ := found
      exact .operator operator (by simp [punctuator])
    | some other =>
      simp only [operator, punctuator] at found
      -- Where both tables have an entry, the punctuator is taken only if it is longer.
      split at found
      · rename_i longer
        obtain ⟨rfl, rfl⟩ := Prod.mk.inj (Option.some.inj found)
        refine .punctuator punctuator fun another same => ?_
        obtain rfl := Option.some.inj (operator.symm.trans same)
        exact longer
      · rename_i noLonger
        obtain ⟨rfl, rfl⟩ := Prod.mk.inj (Option.some.inj found)
        refine .operator operator fun another same => ?_
        obtain rfl := Option.some.inj (punctuator.symm.trans same)
        exact Nat.le_of_not_lt noLonger

theorem symbolKind?_eq_none {language : Language} {input : List Char} :
    symbolKind? language input = none ↔
      language.matchOperator? input = none ∧ language.matchPunctuator? input = none := by
  unfold symbolKind?
  cases language.matchOperator? input <;> cases language.matchPunctuator? input <;> simp
  split <;> simp

theorem symbolKind?_some {kind : TokenKind} {symbol : String} {input : List Char}
    (found : symbolKind? (cLanguage dialect) input = some (kind, symbol)) :
    kind ≠ .endOfFile ∧ symbol ∈ cSymbols ∧ symbol.toList <+: input := by
  cases symbolKind?_rule found with
  | operator matched =>
    have inTable := List.mem_of_find?_eq_some matched
    rw [operators_cLanguage] at inTable
    exact ⟨by simp, List.mem_append_left _ (List.mem_map_of_mem inTable),
      (beginsWith_iff.mp (by simpa using List.find?_some matched)).2⟩
  | punctuator matched =>
    have inTable := List.mem_of_find?_eq_some matched
    rw [punctuators_cLanguage] at inTable
    exact ⟨by simp, List.mem_append_right _ (List.mem_map_of_mem inTable),
      (beginsWith_iff.mp (by simpa using List.find?_some matched)).2⟩

theorem symbolAt?_some (found : symbolAt? (cLanguage dialect) first rest = some segment) :
    IsTokenAhead (first :: rest) segment := by
  obtain ⟨⟨kind, symbol⟩, known, found⟩ := Option.bind_eq_some_iff.mp found
  obtain ⟨notEnd, isSymbol, ahead⟩ := symbolKind?_some known
  simp only at found
  split at found
  · rw [← Option.some.inj found]
    refine ⟨⟨_, _, rfl, notEnd⟩, ?_, by simp⟩
    have starts : StartsInLine symbol.toList (first :: rest) :=
      ⟨ahead, cSymbols_inLine symbol isSymbol⟩
    have whole := starts.take_length
    rw [String.length_toList] at whole
    rwa [whole]
  · cases found

theorem symbolKind?_none {input : List Char}
    (missing : symbolKind? (cLanguage dialect) input = none) :
    ∀ symbol ∈ cSymbols, ¬ symbol.toList <+: input := by
  have neither := symbolKind?_eq_none.mp missing
  intro symbol isSymbol ahead
  have notEmpty : symbol ≠ "" := by
    rintro rfl
    exact absurd (cSymbols_length_pos "" isSymbol) (by decide)
  have begins := beginsWith_iff.mpr ⟨notEmpty, ahead⟩
  rcases List.mem_append.mp isSymbol with isOperator | isPunctuator
  · obtain ⟨entry, inTable, rfl⟩ := List.mem_map.mp isOperator
    rw [← operators_cLanguage dialect] at inTable
    exact List.find?_eq_none.mp neither.1 entry inTable begins
  · obtain ⟨entry, inTable, rfl⟩ := List.mem_map.mp isPunctuator
    rw [← punctuators_cLanguage dialect] at inTable
    exact List.find?_eq_none.mp neither.2 entry inTable begins

theorem symbolAt?_none (missing : symbolAt? (cLanguage dialect) first rest = none) :
    ∀ symbol ∈ cSymbols, ¬ symbol.toList <+: first :: rest := by
  cases known : symbolKind? (cLanguage dialect) (first :: rest) with
  | none => exact symbolKind?_none known
  | some entry =>
    obtain ⟨_, isSymbol, _⟩ := symbolKind?_some known
    have positive : 0 < entry.2.length := cSymbols_length_pos entry.2 isSymbol
    simp [symbolAt?, known, positive] at missing

/-! ## Tokens -/

theorem tokenAt?_some (found : tokenAt? (cLanguage dialect) first rest = some segment) :
    IsTokenAhead (first :: rest) segment := by
  simp only [tokenAt?, Option.orElse_eq_orElse, Option.orElse_eq_or, Option.or_eq_some_iff] at found
  rcases found with isNumber | ⟨_, isQuoted | ⟨_, isWord | ⟨_, isSymbol⟩⟩⟩
  · exact numberAt?_some isNumber
  · have noWord : InLine [] := by simp [InLine]
    exact quotedAt?_some noWord isQuoted
  · exact wordAt?_some isWord
  · exact symbolAt?_some isSymbol

theorem begins_of_startsNumber (starts : startsNumber (cLanguage dialect) first rest = true) :
    BeginsToken (first :: rest) := by
  simp only [startsNumber, Bool.or_eq_true, Bool.and_eq_true, beq_iff_eq] at starts
  rcases starts with isDigit | ⟨rfl, _⟩
  · exact .inl isDigit
  · exact .inr (.inr (.inr (.inr (.inr ⟨".", by decide, by simp⟩))))

theorem tokenAt?_begins (found : tokenAt? (cLanguage dialect) first rest = some segment) :
    BeginsToken (first :: rest) := by
  simp only [tokenAt?, Option.orElse_eq_orElse, Option.orElse_eq_or, Option.or_eq_some_iff] at found
  rcases found with isNumber | ⟨_, isQuoted | ⟨_, isWord | ⟨_, isSymbol⟩⟩⟩
  · unfold numberAt? at isNumber
    split at isNumber
    · exact begins_of_startsNumber ‹_›
    · cases isNumber
  · simp only [quotedAt?] at isQuoted
    split at isQuoted
    · exact .inr (.inl (eq_of_beq ‹_›))
    · split at isQuoted
      · exact .inr (.inr (.inl (eq_of_beq ‹_›)))
      · cases isQuoted
  · unfold wordAt? at isWord
    split at isWord
    · rename_i starts
      change (first == '_' || first.isAlpha) = true at starts
      rcases (Bool.or_eq_true _ _).mp starts with isUnderscore | isLetter
      · exact .inr (.inr (.inr (.inl (eq_of_beq isUnderscore))))
      · exact .inr (.inr (.inr (.inr (.inl isLetter))))
    · cases isWord
  · obtain ⟨⟨kind, symbol⟩, known, _⟩ := Option.bind_eq_some_iff.mp isSymbol
    obtain ⟨_, isSymbol, ahead⟩ := symbolKind?_some known
    exact .inr (.inr (.inr (.inr (.inr ⟨symbol, isSymbol, ahead⟩))))

theorem tokenAt?_none (missing : tokenAt? (cLanguage dialect) first rest = none) :
    ¬ BeginsToken (first :: rest) := by
  simp only [tokenAt?, Option.orElse_eq_orElse, Option.orElse_eq_or, Option.or_eq_none_iff]
    at missing
  obtain ⟨noNumber, noQuoted, noWord, noSymbol⟩ := missing
  have noDigit := numberAt?_none noNumber
  obtain ⟨notString, notCharacter⟩ := quotedAt?_none noQuoted
  obtain ⟨notUnderscore, noLetter⟩ := wordAt?_none noWord
  rintro (isDigit | isString | isCharacter | isUnderscore | isLetter | ⟨symbol, isSymbol, ahead⟩)
  · rw [noDigit] at isDigit
    cases isDigit
  · exact notString isString
  · exact notCharacter isCharacter
  · exact notUnderscore isUnderscore
  · rw [noLetter] at isLetter
    cases isLetter
  · exact symbolAt?_none noSymbol symbol isSymbol ahead

end Segment

end CFrontEnd
