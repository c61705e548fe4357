import CFrontEnd.Proofs.Statements.Parts

/-!
How each form of statement is written and read, if the statements inside it are written and read as
expected. Behind a statement that ends in an `if` without an `else` there must be no `else`; behind all
others may be anything.
-/

namespace CFrontEnd

open Productions Parse

/-! ## Statements by their first word -/

/-- What reads the statements that begin with the word. -/
def Productions.beginningWith (word : Keyword) (deeper : Productions) : Parse Node :=
  match word with
  | .ifWord => ifStatement deeper
  | .whileWord => whileLoop deeper
  | .doWord => doWhileLoop deeper
  | .forWord => forLoop deeper
  | .switchWord => switchStatement deeper
  | .caseWord => caseLabel deeper
  | .defaultWord => defaultLabel deeper
  | .returnWord => returnStatement deeper
  | .breakWord => jump .breakStatement
  | .continueWord => jump .continueStatement
  | .gotoWord => gotoStatement deeper
  | _ => expressionStatement deeper

theorem Productions.statementRule_word {deeper : Productions} {context : ParseContext}
    {state : ParseState} {word : Keyword} (isStatementWord : word.isStatementWord = true)
    (isWord : (context.tokens.get state.position).kind = .keyword word) :
    statementRule deeper context state = beginningWith word deeper context state := by
  have noAttributes : skipAttributes context state = .ok () state := by
    apply skipAttributes_none
    rw [isWord]
    cases word <;> first | exact absurd isStatementWord (by decide) | rfl
  cases word <;> first
    | exact absurd isStatementWord (by decide)
    | simp [statementRule, noAttributes, isWord, beginningWith, atLabel]

/-! ## What is written and read again -/

/-- The words are what the tree is written with as a statement, they begin no declaration, and they are
read as the tree again. -/
structure ReadsStatement (dialect : Dialect) (tree : Node) (words : List Word) : Prop where
  scans : ∀ next, ScansAs dialect tree.statementText.toList words next
  starts : ∀ {context : ParseContext} {state : ParseState}, context.language = cLanguage dialect →
    state.IsPlain → context.tokens.HasWordsAt state.position words → StartsStatement context state
  reads : ∀ {context : ParseContext} {state : ParseState}, context.language = cLanguage dialect →
    state.IsPlain → context.tokens.HasWordsAt state.position words →
    (tree.endsOpen = true →
      (context.tokens.get (state.position + words.length)).kind ≠ .keyword .elseWord) →
    ReadsAs Productions.statement context state (tree.height + 5) (state.position + words.length) tree

variable {dialect : Dialect} {tree value : Node} {first : Word} {words : List Word}
  {spot : SourceLocation} {context : ParseContext} {state : ParseState} {need stop : Nat}

/-- A statement is read one level further out than the rule for it. -/
theorem ReadsAs.statement {production : Productions → Parse Node}
    (starts : StartsStatement context state)
    (rule : ∀ deeper, skipAttributes context state = .ok () state →
      statementRule deeper context state = production deeper context state)
    (reads : ReadsAs production context state need stop tree) :
    ReadsAs Productions.statement context state (need + 1) stop tree := by
  have noAttributes := skipAttributes_none starts.noAttribute
  exact reads.further fun read => (rule (ofLevels _) noAttributes).trans read

namespace ReadsStatement

/-! ## Statements without statements in them -/

theorem empty : ReadsStatement dialect ⟨.empty, spot, .none, []⟩ [.semicolon] := by
  have kind {context : ParseContext} {state : ParseState}
      (has : context.tokens.HasWordsAt state.position [.semicolon]) :
      (context.tokens.get state.position).kind = .punctuator .semicolon :=
    congrArg Word.kind has.1
  refine ⟨?_, ?_, ?_⟩
  · intro next
    rw [Node.statementText_empty]
    exact .semicolon (.nil next)
  · intro context state _ _ has
    exact .punctuator (.inr rfl) (kind has)
  · intro context state _ _ has _
    have reads : ReadsAs (fun _ => emptyStatement) context state 4 (state.position + 1)
        ⟨.empty, spot, .none, []⟩ := by
      intro levels _
      refine ⟨.leaf .empty (context.tokens.get state.position).location .none, ?_, ?_⟩
      · simp [Node.leaf, Node.sameShape, Node.sameShapes]
      · simp [emptyStatement, kind has]
    exact (reads.statement (.punctuator (.inr rfl) (kind has)) fun deeper noAttributes => by
      simp [statementRule, noAttributes, kind has]).mono (by omega)

theorem expression (operand : ReadsFromWord dialect value first) :
    ReadsStatement dialect ⟨.expressionStatement, spot, .none, [value]⟩ [first, .semicolon] := by
  have ends {context : ParseContext} {state : ParseState}
      (has : context.tokens.HasWordsAt state.position [first, .semicolon]) :
      (context.tokens.get (state.position + 1)).kind = .punctuator .semicolon :=
    congrArg Word.kind has.2.1
  have starts {context : ParseContext} {state : ParseState}
      (isC : context.language = cLanguage dialect) (plain : state.IsPlain)
      (has : context.tokens.HasWordsAt state.position [first, .semicolon]) :
      StartsStatement context state := by
    refine ⟨?_, operand.noDeclaration isC plain has.1 (by simp [ends has])⟩
    rw [show (context.tokens.get state.position).kind = first.kind from congrArg Word.kind has.1]
    rcases operand.kind with same | same <;> rw [same] <;> rfl
  refine ⟨?_, starts, ?_⟩
  · intro next
    have text : (Node.statementText ⟨.expressionStatement, spot, .none, [value]⟩).toList =
        value.expressionText.toList ++ [';'] := by
      simp [Node.statementText_expression]
    rw [text]
    exact (operand.scansBefore next (by decide) (by decide)).append (.semicolon (.nil next))
  · intro context state isC plain has _
    have kind : (context.tokens.get state.position).kind = first.kind := congrArg Word.kind has.1
    have reads : ReadsAs expressionStatement context state 4 (state.position + 2)
        ⟨.expressionStatement, spot, .none, [value]⟩ := by
      intro levels enough
      obtain ⟨node, same, read⟩ := operand.expression isC plain has.1
        (by rw [ends has]; rfl) (by simp [ends has]) levels enough
      refine ⟨.ofChildren .expressionStatement (context.tokens.get state.position).location [node],
        ?_, expressionStatement_of_expression read (ends has)⟩
      simp [Node.ofChildren, Node.sameShape, Node.sameShapes, same]
    refine (reads.statement (starts isC plain has) fun deeper noAttributes => ?_).mono (by omega)
    rcases operand.kind with isName | isInteger
    -- A name could also be a label, so the token behind it counts too.
    · exact statementRule_name (kind.trans isName) (by simp [ends has])
    · simp [statementRule, noAttributes, kind.trans isInteger, atLabel]

/-- A statement with a word in front is read by the production of that word. -/
theorem ofWord (production : Productions → Parse Node) {word : Keyword} {name : String}
    (isStatementWord : word.isStatementWord = true) (notElse : word ≠ .elseWord)
    (rule : ∀ deeper, beginningWith word deeper = production deeper)
    (scans : ∀ next, ScansAs dialect tree.statementText.toList
      (.keyword word name :: words) next)
    (reads : ∀ {context : ParseContext} {state : ParseState}, context.language = cLanguage dialect →
      state.IsPlain → (context.tokens.get state.position).kind = .keyword word →
      context.tokens.HasWordsAt (state.position + 1) words →
      (tree.endsOpen = true →
        (context.tokens.get (state.position + 1 + words.length)).kind ≠ .keyword .elseWord) →
      ReadsAs production context state (tree.height + 4) (state.position + 1 + words.length) tree) :
    ReadsStatement dialect tree (.keyword word name :: words) := by
  refine ⟨scans, ?_, ?_⟩
  · intro context state _ _ has
    exact .keyword isStatementWord notElse (congrArg Word.kind has.1)
  · intro context state isC plain has noElse
    have isWord : (context.tokens.get state.position).kind = .keyword word :=
      congrArg Word.kind has.1
    rw [List.length_cons, Nat.add_comm words.length, ← Nat.add_assoc] at noElse ⊢
    exact (reads isC plain isWord has.2 noElse).statement
      (.keyword isStatementWord notElse isWord) fun deeper _ => by
        rw [statementRule_word isStatementWord isWord, rule]

theorem jump {kind : NodeKind} {word : Keyword} {name : String}
    (isStatementWord : word.isStatementWord = true) (notElse : word ≠ .elseWord)
    (spelled : word.spelling = name)
    (text : (Node.statementText ⟨kind, spot, .none, []⟩).toList = name.toList ++ [';'])
    (rule : ∀ deeper, beginningWith word deeper = Productions.jump kind) :
    ReadsStatement dialect ⟨kind, spot, .none, []⟩ [.keyword word name, .semicolon] := by
  refine ofWord (fun _ => Productions.jump kind) isStatementWord notElse rule ?_ ?_
  · intro next
    rw [text]
    exact .wordAlone isStatementWord spelled
  · intro context state _ _ isWord has _ levels _
    have ends : (context.tokens.get (state.position + 1)).kind = .punctuator .semicolon :=
      congrArg Word.kind has.1
    refine ⟨.leaf kind (context.tokens.get state.position).location .none, ?_, ?_⟩
    · simp [Node.leaf, Node.sameShape, Node.sameShapes]
    · simp [Productions.jump, expectSemicolon, isWord, ends]

theorem breakStatement : ReadsStatement dialect ⟨.breakStatement, spot, .none, []⟩
    [.keyword .breakWord "break", .semicolon] := by
  refine jump rfl (by decide) rfl ?_ fun _ => rfl
  simp [Node.statementText_breakStatement]

theorem continueStatement : ReadsStatement dialect ⟨.continueStatement, spot, .none, []⟩
    [.keyword .continueWord "continue", .semicolon] := by
  refine jump rfl (by decide) rfl ?_ fun _ => rfl
  simp [Node.statementText_continueStatement]

theorem returnNothing : ReadsStatement dialect ⟨.returnStatement, spot, .none, []⟩
    [.keyword .returnWord "return", .semicolon] := by
  have text : (Node.statementText ⟨.returnStatement, spot, .none, []⟩).toList =
      "return".toList ++ [';'] := by
    simp [Node.statementText_returnNothing]
  refine ofWord returnStatement rfl (by decide) (fun _ => rfl) ?_ ?_
  · intro next
    rw [text]
    exact .wordAlone rfl rfl
  · intro context state _ _ isWord has _ levels _
    have ends : (context.tokens.get (state.position + 1)).kind = .punctuator .semicolon :=
      congrArg Word.kind has.1
    refine ⟨.ofChildren .returnStatement (context.tokens.get state.position).location [], ?_, ?_⟩
    · simp [Node.ofChildren, Node.sameShape, Node.sameShapes]
    · simp [returnStatement, expectSemicolon, isWord, ends]

theorem returnValue (operand : ReadsFromWord dialect value first) :
    ReadsStatement dialect ⟨.returnStatement, spot, .none, [value]⟩
      [.keyword .returnWord "return", first, .semicolon] := by
  have text : (Node.statementText ⟨.returnStatement, spot, .none, [value]⟩).toList =
      "return".toList ++ ' ' :: (value.expressionText.toList ++ [';']) := by
    simp [Node.statementText_returnValue]
  refine ofWord returnStatement rfl (by decide) (fun _ => rfl) ?_ ?_
  · intro next
    rw [text]
    exact .spacedWord rfl rfl
      ((operand.scansBefore next (by decide) (by decide)).append (.semicolon (.nil next)))
  · intro context state isC plain isWord has _ levels enough
    obtain ⟨isFirst, isSemicolon, _⟩ := has
    have goesOn : (context.tokens.get (state.position + 1)).kind ≠ .punctuator .semicolon := by
      rw [show (context.tokens.get (state.position + 1)).kind = first.kind from
        congrArg Word.kind isFirst]
      rcases operand.kind with same | same <;> simp [same]
    have ends : (context.tokens.get (state.position + 1 + 1)).kind = .punctuator .semicolon :=
      congrArg Word.kind isSemicolon
    obtain ⟨node, same, read⟩ := operand.expression isC (plain.movedTo (state.position + 1))
      isFirst (by simp [ends, TokenKind.endsExpression]) (by simp [ends]) levels (by omega)
    refine ⟨.ofChildren .returnStatement (context.tokens.get state.position).location [node], ?_, ?_⟩
    · simp [Node.ofChildren, Node.sameShape, Node.sameShapes, same]
    · simp [returnStatement, expectSemicolon, isWord, goesOn, read, ends]

theorem gotoStatement {name : String} (isName : IsName dialect name) :
    ReadsStatement dialect ⟨.gotoStatement, spot, .name name, []⟩
      [.keyword .gotoWord "goto", .identifier name, .semicolon] := by
  have text : (Node.statementText ⟨.gotoStatement, spot, .name name, []⟩).toList =
      "goto".toList ++ ' ' :: (name.toList ++ [';']) := by
    simp [Node.statementText_gotoStatement]
  refine ofWord Productions.gotoStatement rfl (by decide) (fun _ => rfl) ?_ ?_
  · intro next
    rw [text]
    have scansName : ScansAs dialect name.toList [.identifier name] ([';'] ++ next) :=
      .identifier isName.1 isName.2 (.cons next (by decide))
    exact .spacedWord rfl rfl (scansName.append (.semicolon (.nil next)))
  · intro context state _ _ isWord has _ levels _
    obtain ⟨isLabel, isSemicolon, _⟩ := has
    obtain ⟨isIdentifier, lexeme, _⟩ := Token.word_eq_mk.mp isLabel
    have ends : (context.tokens.get (state.position + 1 + 1)).kind = .punctuator .semicolon :=
      congrArg Word.kind isSemicolon
    have noStar : consumeInGnu (.operator .star) context (state.movedTo (state.position + 1)) =
        .ok false (state.movedTo (state.position + 1)) :=
      consumeInGnu_other (by simp) (by simp [isIdentifier])
    refine ⟨.named .gotoStatement (context.tokens.get state.position).location name, ?_, ?_⟩
    · simp [Node.named, Node.leaf, Node.sameShape, Node.sameShapes]
    · simp [Productions.gotoStatement, noStar, expectSemicolon, isWord, isIdentifier,
        lexeme, ends]

end ReadsStatement

end CFrontEnd
