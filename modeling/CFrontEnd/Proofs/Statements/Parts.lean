import CFrontEnd.Proofs.Blocks.Items
import CFrontEnd.Proofs.Language.Tables
import CFrontEnd.Proofs.Spelling.Expressions
import CFrontEnd.Proofs.Statements.Trees

/-!
The parts that statements are put together from: their words and marks, the operands in them, and how
what begins a statement is told from a declaration.
-/

namespace CFrontEnd

/-! ## Words and marks -/

/-- The words that statements are written with. -/
def Keyword.isStatementWord : Keyword → Bool
  | .ifWord | .elseWord | .whileWord | .doWord | .forWord | .switchWord | .caseWord | .defaultWord
  | .returnWord | .breakWord | .continueWord | .gotoWord => true
  | _ => false

/-- Every standard reserves the words of statements. -/
theorem Keyword.mem_reservedWords {word : Keyword} (isStatementWord : word.isStatementWord = true) :
    (word.spelling, word, Availability.since .c89) ∈ reservedWords := by
  cases word <;> first | exact absurd isStatementWord (by decide) | decide

theorem Keyword.isIdentifierText_spelling {word : Keyword}
    (isStatementWord : word.isStatementWord = true) : isIdentifierText word.spelling = true := by
  cases word <;> first | exact absurd isStatementWord (by decide) | decide

theorem Availability.allows_first (dialect : Dialect) :
    (Availability.since .c89).allows dialect = true := by
  have isFirst : Standard.c89 ≤ dialect.standard := Nat.zero_le _
  simp [allows, isFirst]

namespace ScansAs

variable {dialect : Dialect} {text next : List Char} {words : List Word} {word : Keyword}
  {name : String}

theorem statementWord (isStatementWord : word.isStatementWord = true)
    (spelled : word.spelling = name) (ends : EndsWord next) :
    ScansAs dialect name.toList [.keyword word name] next := by
  subst spelled
  have found : (cLanguage dialect).keyword? word.spelling = some word := by
    rw [keyword?_cLanguage, mem_reservedIn]
    exact ⟨_, Keyword.mem_reservedWords isStatementWord, Availability.allows_first dialect⟩
  exact .keyword (Keyword.isIdentifierText_spelling isStatementWord) found ends

theorem spacedWord (isStatementWord : word.isStatementWord = true) (spelled : word.spelling = name)
    (rest : ScansAs dialect text words next) :
    ScansAs dialect (name.toList ++ ' ' :: text) (.keyword word name :: words) next :=
  (statementWord isStatementWord spelled (.cons _ (by decide))).append (space rest)

theorem semicolon (rest : ScansAs dialect text words next) :
    ScansAs dialect (';' :: text) (.semicolon :: words) next := by
  have known : (TokenKind.punctuator .semicolon, ";") ∈ cSymbolKinds := by decide
  exact mark known (by decide) (by decide) rest

theorem colon (rest : ScansAs dialect text words next) :
    ScansAs dialect (':' :: text) (.punctuator .colon ":" :: words) next := by
  have known : (TokenKind.punctuator .colon, ":") ∈ cSymbolKinds := by decide
  exact mark known (by decide) (by decide) rest

theorem openBrace (rest : ScansAs dialect text words next) :
    ScansAs dialect ('\x7b' :: text) (.openBrace :: words) next := by
  have known : (TokenKind.punctuator .openBrace, "\x7b") ∈ cSymbolKinds := by decide
  exact mark known (by decide) (by decide) rest

theorem closeBrace (next : List Char) : ScansAs dialect ['\x7d'] [.closeBrace] next := by
  have known : (TokenKind.punctuator .closeBrace, "\x7d") ∈ cSymbolKinds := by decide
  exact mark known (by decide) (by decide) (.nil next)

theorem wordAlone (isStatementWord : word.isStatementWord = true)
    (spelled : word.spelling = name) :
    ScansAs dialect (name.toList ++ [';']) [.keyword word name, .semicolon] next :=
  (statementWord isStatementWord spelled (.cons _ (by decide))).append (semicolon (.nil next))

end ScansAs

theorem exists_wordLists {Item : Type} {HasWords : Item → List Word → Prop} {items : List Item}
    (each : ∀ item ∈ items, ∃ words, HasWords item words) :
    ∃ wordLists, List.Forall₂ HasWords items wordLists := by
  induction items with
  | nil => exact ⟨[], .nil⟩
  | cons item rest ih =>
    obtain ⟨words, hasWords⟩ := each item List.mem_cons_self
    obtain ⟨wordLists, hasRest⟩ := ih fun other isOther => each other (.tail _ isOther)
    exact ⟨words :: wordLists, .cons hasWords hasRest⟩

/-! ## Operands -/

variable {dialect : Dialect} {value : Node} {word : Word} {context : ParseContext}
  {state : ParseState}

/-- The operand is written as one word, and read from it. -/
structure ReadsFromWord (dialect : Dialect) (value : Node) (word : Word) : Prop where
  scans : ∀ next, EndsWord next → next.head? ≠ some '.' →
    ScansAs dialect value.expressionText.toList [word] next
  kind : word.kind = .identifier ∨ word.kind = .literal .integer
  starts : ∀ {context : ParseContext} {state : ParseState}, context.language = cLanguage dialect →
    state.IsPlain → (context.tokens.get state.position).word = word → StartsOperand context state
  reads : ∀ {context : ParseContext} {state : ParseState}, context.language = cLanguage dialect →
    state.IsPlain → (context.tokens.get state.position).word = word →
    ReadsOperand context state 0 (state.position + 1) value

theorem IsOperand.readsFromWord (isOperand : IsOperand dialect value) :
    ∃ word, ReadsFromWord dialect value word := by
  cases isOperand with
  | @identifier spot name isName notBuiltin =>
    have noType {context : ParseContext} {state : ParseState}
        (isC : context.language = cLanguage dialect) (plain : state.IsPlain) :
        context.language.isTypeName state.scopes.isTypedefName name = false := by
      rw [isTypeName_cLanguage isC plain]
      simpa using notBuiltin
    refine ⟨.identifier name, ?_, .inl rfl, ?_, ?_⟩
    · intro next ends _
      exact .identifier isName.1 isName.2 ends
    · intro context state isC plain isWord
      obtain ⟨kind, lexeme, _⟩ := Token.word_eq_mk.mp isWord
      refine .single (.inl kind) ?_
      simp [Productions.beginsTypeName, kind, lexeme, noType isC plain]
    · intro context state isC plain isWord
      obtain ⟨kind, lexeme, _⟩ := Token.word_eq_mk.mp isWord
      exact .identifier kind lexeme (noType isC plain)
  | @integer spot number suffix isInteger =>
    refine ⟨.integer number suffix, ?_, .inr rfl, ?_, ?_⟩
    · intro next ends notPoint
      exact .integer isInteger.1 isInteger.2 ends fun _ => notPoint
    · intro context state _ _ isWord
      obtain ⟨kind, _, _⟩ := Token.word_eq_mk.mp isWord
      exact .single (.inr kind) (by simp [Productions.beginsTypeName, kind])
    · intro context state _ _ isWord
      obtain ⟨kind, _, isValue⟩ := Token.word_eq_mk.mp isWord
      exact .integer kind isValue

namespace ReadsFromWord

theorem expression (operand : ReadsFromWord dialect value word)
    (isC : context.language = cLanguage dialect) (plain : state.IsPlain)
    (isWord : (context.tokens.get state.position).word = word)
    (ends : (context.tokens.get (state.position + 1)).kind.endsExpression = true)
    (noComma : (context.tokens.get (state.position + 1)).kind ≠ .punctuator .comma) :
    ReadsAs Productions.expression context state 4 (state.position + 1) value :=
  (operand.reads isC plain isWord).expression isC (operand.starts isC plain isWord) ends noComma

/-- An operand in front of `character`, which goes on with no word and no number. -/
theorem scansBefore (operand : ReadsFromWord dialect value word) {character : Char}
    (later : List Char)
    (ends : (character == '_' || character.isAlphanum) = false ∧ character ≠ '"' ∧
      character ≠ '\'') (notPoint : character ≠ '.') :
    ScansAs dialect value.expressionText.toList [word] (character :: later) :=
  operand.scans _ (.cons later ends) (by simpa using notPoint)

theorem scansEnclosed (operand : ReadsFromWord dialect value word) {text next : List Char}
    {words : List Word} (rest : ScansAs dialect text words next) :
    ScansAs dialect ('(' :: (value.expressionText.toList ++ ')' :: text))
      (.openParen :: ([word] ++ (.closeParen :: words))) next :=
  .openParen ((operand.scansBefore _ (by decide) (by decide)).append (.closeParen rest))

theorem condition (operand : ReadsFromWord dialect value word)
    (isC : context.language = cLanguage dialect) (plain : state.IsPlain) (behind : String)
    (has : context.tokens.HasWordsAt state.position [.openParen, word, .closeParen]) :
    ReadsAs (fun deeper => Productions.parenthesizedCondition deeper behind) context state 4
      (state.position + 3) value := by
  obtain ⟨opens, isWord, closes, _⟩ := has
  have isOpen : (context.tokens.get state.position).kind = .punctuator .openParen :=
    congrArg Word.kind opens
  have isClosed : (context.tokens.get (state.position + 1 + 1)).kind = .punctuator .closeParen :=
    congrArg Word.kind closes
  intro levels enough
  obtain ⟨node, same, read⟩ := operand.expression isC (plain.movedTo (state.position + 1)) isWord
    (by simp [isClosed, TokenKind.endsExpression]) (by simp [isClosed]) levels enough
  refine ⟨node, same, ?_⟩
  simp [Productions.parenthesizedCondition, Parse.expectClosingParen, isOpen, read, isClosed]

end ReadsFromWord

/-! ## Clauses of loops -/

/-- The clause is written with these words, which may be none, and read from them up to a mark. -/
structure ReadsClause (dialect : Dialect) (clause : Node) (words : List Word) : Prop where
  scans : ∀ (character : Char) (later : List Char), character = ';' ∨ character = ')' →
    ScansAs dialect clause.clauseText.toList words (character :: later)
  reads : ∀ {context : ParseContext} {state : ParseState} (ending : Punctuator),
    ending = .semicolon ∨ ending = .closeParen → context.language = cLanguage dialect →
    state.IsPlain → context.tokens.HasWordsAt state.position words →
    (context.tokens.get (state.position + words.length)).kind = .punctuator ending →
    ReadsAs (fun deeper => Productions.optionalExpression deeper ending) context state 4
      (state.position + words.length) clause
  noDeclaration : ∀ {context : ParseContext} {state : ParseState},
    context.language = cLanguage dialect → state.IsPlain →
    context.tokens.HasWordsAt state.position words →
    (context.tokens.get (state.position + words.length)).kind = .punctuator .semicolon →
    Parse.startsDeclaration context state = .ok false state

theorem IsOperand.clauseText (isOperand : IsOperand dialect value) :
    value.clauseText = value.expressionText := by
  cases isOperand <;> rfl

/-- An operand with no colon behind it is no declaration. -/
theorem ReadsFromWord.noDeclaration (operand : ReadsFromWord dialect value word)
    (isC : context.language = cLanguage dialect) (plain : state.IsPlain)
    (isWord : (context.tokens.get state.position).word = word)
    (noLabel : (context.tokens.get (state.position + 1)).kind ≠ .punctuator .colon) :
    Parse.startsDeclaration context state = .ok false state := by
  have kind : (context.tokens.get state.position).kind = word.kind := congrArg Word.kind isWord
  rcases operand.kind with isName | isLiteral
  · have noType := (operand.starts isC plain isWord).noTypeName
    rw [isName] at kind
    simp only [Productions.beginsTypeName, kind] at noType
    rw [Parse.startsDeclaration_name kind noLabel, noType]
  · exact Parse.startsDeclaration_literal (kind.trans isLiteral)

theorem IsClause.readsClause {clause : Node} (isClause : IsClause dialect clause) :
    ∃ words, ReadsClause dialect clause words := by
  cases isClause with
  | empty =>
    refine ⟨[], fun _ _ _ => .nil _, ?_, ?_⟩
    · intro context state ending _ _ _ _ ends levels _
      have ends : (context.tokens.get state.position).kind = .punctuator ending := ends
      refine ⟨.leaf .empty (context.tokens.get state.position).location .none, ?_, ?_⟩
      · simp [Node.leaf, Node.sameShape, Node.sameShapes]
      · simp [Productions.optionalExpression, ends]
    · intro context state _ _ _ ends
      exact Parse.startsDeclaration_punctuator ends (by decide)
  | operand isOperand =>
    obtain ⟨word, operand⟩ := isOperand.readsFromWord
    refine ⟨[word], ?_, ?_, ?_⟩
    · intro character later isEnd
      rw [isOperand.clauseText]
      rcases isEnd with rfl | rfl
      · exact operand.scansBefore later (by decide) (by decide)
      · exact operand.scansBefore later (by decide) (by decide)
    · intro context state ending isEnd isC plain has ends levels enough
      have ends : (context.tokens.get (state.position + 1)).kind = .punctuator ending := ends
      -- The clause is not empty, as it begins with a name or an integer.
      have goesOn : (context.tokens.get state.position).kind ≠ .punctuator ending := by
        have kind : (context.tokens.get state.position).kind = word.kind := congrArg Word.kind has.1
        rw [kind]
        rcases operand.kind with same | same <;> simp [same]
      have endsExpression : (TokenKind.punctuator ending).endsExpression = true ∧
          ending ≠ .comma := by
        rcases isEnd with rfl | rfl <;> decide
      obtain ⟨node, same, read⟩ := operand.expression isC plain has.1
        (by rw [ends]; exact endsExpression.1) (by simp [ends, endsExpression.2]) levels enough
      exact ⟨node, same, by simp [Productions.optionalExpression, goesOn, read]⟩
    · intro context state isC plain has ends
      have ends : (context.tokens.get (state.position + 1)).kind = .punctuator .semicolon := ends
      exact operand.noDeclaration isC plain has.1 (by simp [ends])

namespace ReadsClause

variable {clause : Node} {words : List Word}

theorem beginning (reads : ReadsClause dialect clause words)
    (isC : context.language = cLanguage dialect) (plain : state.IsPlain)
    (has : context.tokens.HasWordsAt state.position words)
    (ends : (context.tokens.get (state.position + words.length)).kind = .punctuator .semicolon) :
    ReadsAs Productions.forBeginning context state 4 (state.position + words.length + 1) clause := by
  intro levels enough
  obtain ⟨node, same, read⟩ := reads.reads .semicolon (.inl rfl) isC plain has ends levels enough
  have noDeclaration := reads.noDeclaration isC plain has ends
  refine ⟨node, same, ?_⟩
  simp [Productions.forBeginning, Productions.expectForSemicolon, noDeclaration, read, ends]

end ReadsClause

/-! ## What begins a statement -/

/-- The kinds of tokens that statements of these forms begin with. -/
def TokenKind.beginsStatement : TokenKind → Bool
  | .keyword word => word.isStatementWord && word != .elseWord
  | .punctuator .openBrace | .punctuator .semicolon | .identifier | .literal .integer => true
  | _ => false

/-- A statement and no declaration begins at the current token. -/
structure StartsStatement (context : ParseContext) (state : ParseState) : Prop where
  kind : (context.tokens.get state.position).kind.beginsStatement = true
  noDeclaration : Parse.startsDeclaration context state = .ok false state

namespace StartsStatement

theorem notElse (starts : StartsStatement context state) :
    (context.tokens.get state.position).kind ≠ .keyword .elseWord := by
  intro isElse
  have begins := starts.kind
  rw [isElse] at begins
  exact absurd begins (by decide)

theorem notClosing (starts : StartsStatement context state) :
    (context.tokens.get state.position).kind ≠ .punctuator .closeBrace := by
  intro closes
  have begins := starts.kind
  rw [closes] at begins
  exact absurd begins (by decide)

theorem notEnd (starts : StartsStatement context state) :
    (context.tokens.get state.position).kind ≠ .endOfFile := by
  intro ends
  have begins := starts.kind
  rw [ends] at begins
  exact absurd begins (by decide)

theorem noAttribute (starts : StartsStatement context state) :
    (context.tokens.get state.position).kind.mayBeginAttribute = false := by
  rw [← Bool.not_eq_true]
  intro begins
  have kind := starts.kind
  cases isKind : (context.tokens.get state.position).kind with
  | keyword word =>
    rw [isKind] at kind begins
    cases word <;> first | exact absurd begins (by decide) | exact absurd kind (by decide)
  | punctuator punctuator =>
    rw [isKind] at kind begins
    cases punctuator <;> first | exact absurd begins (by decide) | exact absurd kind (by decide)
  | _ => simp [isKind, TokenKind.mayBeginAttribute] at begins

theorem keyword {word : Keyword} (isStatementWord : word.isStatementWord = true)
    (notElse : word ≠ .elseWord) (isWord : (context.tokens.get state.position).kind = .keyword word) :
    StartsStatement context state := by
  have facts : word ≠ .extensionWord ∧ word ≠ .attributeWord ∧ word.beginsDeclaration = false := by
    cases word <;> first | exact absurd isStatementWord (by decide) | decide
  refine ⟨by simp [isWord, TokenKind.beginsStatement, isStatementWord, notElse], ?_⟩
  rw [Parse.startsDeclaration_keyword isWord facts.1 facts.2.1, facts.2.2]

theorem punctuator {punctuator : Punctuator}
    (opens : punctuator = .openBrace ∨ punctuator = .semicolon)
    (isPunctuator : (context.tokens.get state.position).kind = .punctuator punctuator) :
    StartsStatement context state := by
  refine ⟨?_, Parse.startsDeclaration_punctuator isPunctuator ?_⟩
  · rw [isPunctuator]
    rcases opens with rfl | rfl <;> rfl
  · rcases opens with rfl | rfl <;> decide

end StartsStatement

end CFrontEnd
