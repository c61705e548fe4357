import CFrontEnd.Proofs.Scan.Lexemes

/-!
Texts of several tokens, scanned from the left. What stands behind a symbol or a word must not go on
with it; blanks, parentheses and commas never do.
-/

namespace CFrontEnd

/-- The text begins with a parenthesis, a digit or a word, and so goes on with no symbol. -/
def BeginsOperand (text : List Char) : Prop :=
  ∃ first rest, text = first :: rest ∧
    (first = '(' ∨ (first == '_' || first.isAlphanum) = true)

theorem BeginsOperand.append {text : List Char} (begins : BeginsOperand text) (later : List Char) :
    BeginsOperand (text ++ later) := by
  obtain ⟨first, rest, rfl, isFirst⟩ := begins
  exact ⟨first, rest ++ later, rfl, isFirst⟩

theorem beginsOperand_paren (rest : List Char) : BeginsOperand ('(' :: rest) :=
  ⟨'(', rest, rfl, .inl rfl⟩

theorem beginsOperand_word {name : String} (isText : isIdentifierText name = true) :
    BeginsOperand name.toList := by
  unfold isIdentifierText at isText
  split at isText
  · cases isText
  · rename_i first rest characters
    rw [Bool.and_eq_true] at isText
    refine ⟨first, rest, characters, .inr ?_⟩
    exact @Segment.continues_of_starts gnuC17 _ isText.1

theorem beginsOperand_integer (value : Nat) (suffix : IntegerSuffix) :
    BeginsOperand (Literal.integer value suffix).spelling.toList := by
  obtain ⟨first, rest, digits⟩ :=
    List.exists_cons_of_ne_nil (Nat.toDigits_ne_nil (n := value) (b := 10))
  have isDigit : first.isDigit = true :=
    Nat.isDigit_of_mem_toDigits (b := 10) (n := value) (by decide) (by decide)
      (by rw [digits]; simp)
  refine ⟨first, rest ++ suffix.spelling.toList, ?_, .inr ?_⟩
  · simp [Literal.spelling, digits]
  · simp [Char.isAlphanum, isDigit]

theorem EndsWord.cons {character : Char} (later : List Char)
    (ends : (character == '_' || character.isAlphanum) = false ∧ character ≠ '"' ∧
      character ≠ '\'') : EndsWord (character :: later) := by
  rintro _ ⟨⟩
  exact ends

theorem EndsWord.nil : EndsWord [] := by
  rintro _ ⟨⟩

namespace EndsSymbol

theorem nil (symbol : String) : EndsSymbol symbol [] := by
  rintro _ ⟨⟩

/-- Most symbols end wherever they stand. -/
theorem of_noTails {symbol : String} (noTails : symbolTails symbol = []) (notPoint : symbol ≠ ".")
    (next : List Char) : EndsSymbol symbol next := by
  intro character _
  simp [noTails, notPoint]

theorem tails_cSymbols : ∀ symbol ∈ cSymbols, ∀ tail ∈ symbolTails symbol,
    tail ≠ ' ' ∧ tail ≠ '(' ∧ (tail == '_' || tail.isAlphanum) = false := by
  have decided : cSymbols.all (fun symbol => (symbolTails symbol).all fun tail =>
      tail != ' ' && tail != '(' && !(tail == '_' || tail.isAlphanum)) = true := by
    decide +kernel
  intro symbol isSymbol tail isTail
  have holds := List.all_eq_true.mp (List.all_eq_true.mp decided symbol isSymbol) tail isTail
  simpa [and_assoc] using holds

theorem space {symbol : String} (isSymbol : symbol ∈ cSymbols) (later : List Char) :
    EndsSymbol symbol (' ' :: later) := by
  rintro _ ⟨⟩
  refine ⟨?_, fun _ => by decide⟩
  intro isTail
  exact (tails_cSymbols symbol isSymbol ' ' isTail).1 rfl

theorem operand {symbol : String} {next : List Char} (isSymbol : symbol ∈ cSymbols)
    (notPoint : symbol ≠ ".") (begins : BeginsOperand next) : EndsSymbol symbol next := by
  obtain ⟨first, rest, rfl, isFirst⟩ := begins
  rintro _ ⟨⟩
  refine ⟨?_, fun isPoint => absurd isPoint notPoint⟩
  intro isTail
  obtain ⟨_, notParen, notWord⟩ := tails_cSymbols symbol isSymbol first isTail
  rcases isFirst with isParen | isWord
  · exact notParen isParen
  · rw [notWord] at isWord
    cases isWord

/-- A point in front of a name begins no number. -/
theorem point_name {name : String} (isText : isIdentifierText name = true) (later : List Char) :
    EndsSymbol "." (name.toList ++ later) := by
  intro character isNext
  unfold isIdentifierText at isText
  split at isText
  · cases isText
  · rename_i first rest characters
    rw [characters] at isNext
    obtain rfl := Option.some.inj isNext
    rw [Bool.and_eq_true] at isText
    refine ⟨?_, fun _ => isDigit_of_startsIdentifier isText.1⟩
    have onlyPoint : (symbolTails ".").all (fun tail => tail == '.') = true := by decide
    intro isTail
    obtain rfl := eq_of_beq (List.all_eq_true.mp onlyPoint first isTail)
    exact absurd isText.1 (by decide)

end EndsSymbol

namespace ScansAs

variable {dialect : Dialect} {text next : List Char} {words : List Word} {kind : TokenKind}
  {symbol : String}

theorem space (rest : ScansAs dialect text words next) :
    ScansAs dialect (' ' :: text) words next :=
  (blank _).append rest

theorem symbolThen (known : (kind, symbol) ∈ cSymbolKinds) (ends : EndsSymbol symbol (text ++ next))
    (rest : ScansAs dialect text words next) :
    ScansAs dialect (symbol.toList ++ text) (⟨kind, symbol, none⟩ :: words) next :=
  (ScansAs.symbol known ends).append rest

theorem mark (known : (kind, symbol) ∈ cSymbolKinds) (noTails : symbolTails symbol = [])
    (notPoint : symbol ≠ ".") (rest : ScansAs dialect text words next) :
    ScansAs dialect (symbol.toList ++ text) (⟨kind, symbol, none⟩ :: words) next :=
  symbolThen known (.of_noTails noTails notPoint _) rest

theorem openParen (rest : ScansAs dialect text words next) :
    ScansAs dialect ('(' :: text) (Word.openParen :: words) next := by
  have known : (TokenKind.punctuator .openParen, "(") ∈ cSymbolKinds := by decide
  exact mark known (by decide) (by decide) rest

theorem closeParen (rest : ScansAs dialect text words next) :
    ScansAs dialect (')' :: text) (Word.closeParen :: words) next := by
  have known : (TokenKind.punctuator .closeParen, ")") ∈ cSymbolKinds := by decide
  exact mark known (by decide) (by decide) rest

theorem openBracket (rest : ScansAs dialect text words next) :
    ScansAs dialect ('[' :: text) (Word.openBracket :: words) next := by
  have known : (TokenKind.punctuator .openBracket, "[") ∈ cSymbolKinds := by decide
  exact mark known (by decide) (by decide) rest

theorem closeBracket (rest : ScansAs dialect text words next) :
    ScansAs dialect (']' :: text) (Word.closeBracket :: words) next := by
  have known : (TokenKind.punctuator .closeBracket, "]") ∈ cSymbolKinds := by decide
  exact mark known (by decide) (by decide) rest

theorem comma (rest : ScansAs dialect text words next) :
    ScansAs dialect (',' :: ' ' :: text) (Word.comma :: words) next := by
  have known : (TokenKind.punctuator .comma, ",") ∈ cSymbolKinds := by decide
  exact mark known (by decide) (by decide) (space rest)

theorem spacedSymbol (known : (kind, symbol) ∈ cSymbolKinds)
    (rest : ScansAs dialect text words next) :
    ScansAs dialect (symbol.toList ++ ' ' :: text) (⟨kind, symbol, none⟩ :: words) next :=
  symbolThen known (.space (mem_cSymbols known) _) (space rest)

end ScansAs

end CFrontEnd
