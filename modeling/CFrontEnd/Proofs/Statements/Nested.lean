import CFrontEnd.Proofs.Statements.Forms

/-!
The forms of statements with statements inside. An `else` goes to the nearest `if` that can take it, so
that the branch in front of one must not end in an `if` that still could.
-/

namespace CFrontEnd

open Parse

/-! ## Conditions in front of a statement -/

/-- A word, a condition in parentheses and a statement: a loop or a `switch`. -/
def Productions.conditioned (kind : NodeKind) (name : String) (deeper : Productions) :
    Parse Node := do
  let word ← advance
  let condition ← parenthesizedCondition deeper name
  let body ← deeper.statement
  return .ofChildren kind word.location [condition, body]

namespace ReadsStatement

open Productions

variable {dialect : Dialect} {tree value otherwise : Node} {first : Word}
  {words otherWords : List Word} {spot : SourceLocation}

theorem conditioned {kind : NodeKind} {word : Keyword} {name : String}
    (isStatementWord : word.isStatementWord = true) (notElse : word ≠ .elseWord)
    (spelled : word.spelling = name)
    (operand : ReadsFromWord dialect value first) (body : ReadsStatement dialect tree words)
    (text : (Node.statementText ⟨kind, spot, .none, [value, tree]⟩).toList =
      name.toList ++ ' ' :: '(' ::
        (value.expressionText.toList ++ ')' :: ' ' :: tree.statementText.toList))
    (sameEnd : Node.endsOpen ⟨kind, spot, .none, [value, tree]⟩ = tree.endsOpen)
    (rule : ∀ deeper, beginningWith word deeper =
      Productions.conditioned kind name deeper) :
    ReadsStatement dialect ⟨kind, spot, .none, [value, tree]⟩
      (.keyword word name :: ([.openParen, first, .closeParen] ++ words)) := by
  have lower : tree.height + 1 ≤ Node.height ⟨kind, spot, .none, [value, tree]⟩ :=
    Node.height_child (by simp)
  refine ofWord (Productions.conditioned kind name) isStatementWord notElse rule ?_ ?_
  · intro next
    rw [text]
    exact .spacedWord isStatementWord spelled (operand.scansEnclosed (.space (body.scans next)))
  · intro context state isC plain isWord has noElse levels enough
    rw [sameEnd, List.length_append, ← Nat.add_assoc] at noElse
    rw [List.length_append, ← Nat.add_assoc]
    obtain ⟨hasCondition, hasBody⟩ := (context.tokens.hasWordsAt_append _ _ _).mp has
    obtain ⟨condition, sameCondition, readCondition⟩ :=
      operand.condition isC (plain.movedTo (state.position + 1)) name hasCondition levels
        (by omega)
    obtain ⟨inner, sameBody, readBody⟩ :=
      body.reads isC (plain.movedTo (state.position + 1 + 3)) hasBody noElse levels (by omega)
    refine ⟨.ofChildren kind (context.tokens.get state.position).location [condition, inner],
      ?_, ?_⟩
    · simp [Node.ofChildren, Node.sameShape, Node.sameShapes, sameCondition, sameBody]
    · simp [Productions.conditioned, isWord, readCondition, readBody]

theorem whileLoop (operand : ReadsFromWord dialect value first)
    (body : ReadsStatement dialect tree words) :
    ReadsStatement dialect ⟨.whileLoop, spot, .none, [value, tree]⟩
      (.keyword .whileWord "while" :: ([.openParen, first, .closeParen] ++ words)) := by
  refine conditioned rfl (by decide) rfl operand body ?_ rfl fun _ => rfl
  simp [Node.statementText_whileLoop]

theorem switchStatement (operand : ReadsFromWord dialect value first)
    (body : ReadsStatement dialect tree words) :
    ReadsStatement dialect ⟨.switchStatement, spot, .none, [value, tree]⟩
      (.keyword .switchWord "switch" :: ([.openParen, first, .closeParen] ++ words)) := by
  refine conditioned rfl (by decide) rfl operand body ?_ rfl fun _ => rfl
  simp [Node.statementText_switchStatement]

/-! ## Branches -/

theorem ifThen (operand : ReadsFromWord dialect value first)
    (taken : ReadsStatement dialect tree words) :
    ReadsStatement dialect ⟨.ifStatement, spot, .none, [value, tree]⟩
      (.keyword .ifWord "if" :: ([.openParen, first, .closeParen] ++ words)) := by
  have text : (Node.statementText ⟨.ifStatement, spot, .none, [value, tree]⟩).toList =
      "if".toList ++ ' ' :: '(' ::
        (value.expressionText.toList ++ ')' :: ' ' :: tree.statementText.toList) := by
    simp [Node.statementText_ifThen]
  have lower : tree.height + 1 ≤ Node.height ⟨.ifStatement, spot, .none, [value, tree]⟩ :=
    Node.height_child (by simp)
  refine ofWord ifStatement rfl (by decide) (fun _ => rfl) ?_ ?_
  · intro next
    rw [text]
    exact .spacedWord rfl rfl (operand.scansEnclosed (.space (taken.scans next)))
  · intro context state isC plain isWord has noElse levels enough
    have noElse := noElse rfl
    rw [List.length_append, ← Nat.add_assoc] at noElse ⊢
    have noElse : (context.tokens.get (state.position + 1 + 3 + words.length)).kind ≠
        .keyword .elseWord := noElse
    obtain ⟨hasCondition, hasTaken⟩ := (context.tokens.hasWordsAt_append _ _ _).mp has
    obtain ⟨condition, sameCondition, readCondition⟩ :=
      operand.condition isC (plain.movedTo (state.position + 1)) "if" hasCondition levels (by omega)
    obtain ⟨inner, sameTaken, readTaken⟩ :=
      taken.reads isC (plain.movedTo (state.position + 1 + 3)) hasTaken (fun _ => noElse) levels
        (by omega)
    refine ⟨.ofChildren .ifStatement (context.tokens.get state.position).location
      [condition, inner], ?_, ?_⟩
    · simp [Node.ofChildren, Node.sameShape, Node.sameShapes, sameCondition, sameTaken]
    · simp [ifStatement, isWord, readCondition, readTaken, noElse]

/-- The `else` is not taken by anything in the branch in front of it. -/
theorem ifElse (operand : ReadsFromWord dialect value first) (closed : tree.endsOpen = false)
    (taken : ReadsStatement dialect tree words)
    (other : ReadsStatement dialect otherwise otherWords) :
    ReadsStatement dialect ⟨.ifStatement, spot, .none, [value, tree, otherwise]⟩
      (.keyword .ifWord "if" :: ([.openParen, first, .closeParen] ++
        (words ++ .keyword .elseWord "else" :: otherWords))) := by
  have text : (Node.statementText ⟨.ifStatement, spot, .none, [value, tree, otherwise]⟩).toList =
      "if".toList ++ ' ' :: '(' ::
        (value.expressionText.toList ++ ')' :: ' ' :: (tree.statementText.toList ++
          ' ' :: ("else".toList ++ ' ' :: otherwise.statementText.toList))) := by
    simp [Node.statementText_ifElse]
  have lower : ∀ child ∈ [value, tree, otherwise], child.height + 1 ≤
      Node.height ⟨.ifStatement, spot, .none, [value, tree, otherwise]⟩ := fun _ => Node.height_child
  have takenLower := lower tree (by simp)
  have otherLower := lower otherwise (by simp)
  have sameEnd : Node.endsOpen ⟨.ifStatement, spot, .none, [value, tree, otherwise]⟩ =
      otherwise.endsOpen :=
    rfl
  refine ofWord ifStatement rfl (by decide) (fun _ => rfl) ?_ ?_
  · intro next
    rw [text]
    have scansOther : ScansAs dialect
        ("else".toList ++ ' ' :: otherwise.statementText.toList)
        (.keyword .elseWord "else" :: otherWords) next := .spacedWord rfl rfl (other.scans next)
    exact .spacedWord rfl rfl
      (operand.scansEnclosed (.space ((taken.scans _).append (.space scansOther))))
  · intro context state isC plain isWord has noElse levels enough
    have stop : state.position + 1 + ([Word.openParen, first, .closeParen] ++
        (words ++ .keyword .elseWord "else" :: otherWords)).length =
        state.position + 1 + 3 + words.length + 1 + otherWords.length := by
      simp only [List.length_cons, List.length_append, List.length_nil]
      omega
    rw [stop, sameEnd] at noElse
    rw [stop]
    rw [TokenStream.hasWordsAt_append, TokenStream.hasWordsAt_append] at has
    obtain ⟨hasCondition, hasTaken, isSecond, hasOther⟩ := has
    have isElse : (context.tokens.get (state.position + 1 + 3 + words.length)).kind =
        .keyword .elseWord := congrArg Word.kind isSecond
    obtain ⟨condition, sameCondition, readCondition⟩ :=
      operand.condition isC (plain.movedTo (state.position + 1)) "if" hasCondition levels (by omega)
    -- The branch is closed, so that reading it stops in front of the `else`.
    obtain ⟨inner, sameTaken, readTaken⟩ :=
      taken.reads isC (plain.movedTo (state.position + 1 + 3)) hasTaken (by simp [closed]) levels
        (by omega)
    obtain ⟨last, sameOther, readOther⟩ :=
      other.reads isC (plain.movedTo (state.position + 1 + 3 + words.length + 1)) hasOther noElse
        levels (by omega)
    refine ⟨.ofChildren .ifStatement (context.tokens.get state.position).location
      [condition, inner, last], ?_, ?_⟩
    · simp [Node.ofChildren, Node.sameShape, Node.sameShapes, sameCondition, sameTaken, sameOther]
    · simp [ifStatement, isWord, readCondition, readTaken, isElse, readOther]

/-! ## Other loops -/

theorem doWhileLoop (operand : ReadsFromWord dialect value first)
    (body : ReadsStatement dialect tree words) :
    ReadsStatement dialect ⟨.doWhileLoop, spot, .none, [tree, value]⟩
      (.keyword .doWord "do" :: (words ++ .keyword .whileWord "while" ::
        ([.openParen, first, .closeParen] ++ [.semicolon]))) := by
  have text : (Node.statementText ⟨.doWhileLoop, spot, .none, [tree, value]⟩).toList =
      "do".toList ++ ' ' :: (tree.statementText.toList ++
        ' ' :: ("while".toList ++ ' ' :: '(' ::
          (value.expressionText.toList ++ [')', ';']))) := by
    simp [Node.statementText_doWhileLoop]
  have lower : tree.height + 1 ≤ Node.height ⟨.doWhileLoop, spot, .none, [tree, value]⟩ :=
    Node.height_child (by simp)
  refine ofWord Productions.doWhileLoop rfl (by decide) (fun _ => rfl) ?_ ?_
  · intro next
    rw [text]
    have scansWhile : ScansAs dialect ("while".toList ++ ' ' :: '(' ::
          (value.expressionText.toList ++ [')', ';']))
        (.keyword .whileWord "while" :: ([.openParen, first, .closeParen] ++ [.semicolon])) next :=
      .spacedWord rfl rfl (operand.scansEnclosed (.semicolon (.nil next)))
    exact .spacedWord rfl rfl ((body.scans _).append (.space scansWhile))
  · intro context state isC plain isWord has _ levels enough
    obtain ⟨hasBody, isSecond, hasEnd⟩ := (context.tokens.hasWordsAt_append _ _ _).mp has
    obtain ⟨hasCondition, isSemicolon, _⟩ := (context.tokens.hasWordsAt_append _ _ _).mp hasEnd
    have isWhile : (context.tokens.get (state.position + 1 + words.length)).kind =
        .keyword .whileWord := congrArg Word.kind isSecond
    have ends : (context.tokens.get (state.position + 1 + words.length + 1 + 3)).kind =
        .punctuator .semicolon := congrArg Word.kind isSemicolon
    have stop : state.position + 1 + (words ++ Word.keyword .whileWord "while" ::
        ([.openParen, first, .closeParen] ++ [.semicolon])).length =
        state.position + 1 + words.length + 1 + 3 + 1 := by
      simp only [List.length_cons, List.length_append, List.length_nil]
      omega
    rw [stop]
    -- The word behind the body is no other branch, so the body may end in an open statement.
    obtain ⟨inner, sameBody, readBody⟩ := body.reads isC (plain.movedTo (state.position + 1)) hasBody
      (by simp [isWhile]) levels (by omega)
    obtain ⟨condition, sameCondition, readCondition⟩ :=
      operand.condition isC (plain.movedTo (state.position + 1 + words.length + 1)) "while"
        hasCondition levels (by omega)
    refine ⟨.ofChildren .doWhileLoop (context.tokens.get state.position).location
      [inner, condition], ?_, ?_⟩
    · simp [Node.ofChildren, Node.sameShape, Node.sameShapes, sameCondition, sameBody]
    · simp [Productions.doWhileLoop, expect_apply, expectSemicolon, isWord, readBody,
        isWhile, readCondition, ends]

/-- The parts of a loop, each in its place behind the word that begins it. -/
structure ForLoopAt (tokens : TokenStream) (position : Nat) (before between behind words : List Word) :
    Prop where
  opens : (tokens.get position).kind = .punctuator .openParen
  first : tokens.HasWordsAt (position + 1) before
  firstEnds : (tokens.get (position + 1 + before.length)).kind = .punctuator .semicolon
  second : tokens.HasWordsAt (position + 1 + before.length + 1) between
  secondEnds : (tokens.get (position + 1 + before.length + 1 + between.length)).kind =
    .punctuator .semicolon
  third : tokens.HasWordsAt (position + 1 + before.length + 1 + between.length + 1) behind
  closes : (tokens.get
    (position + 1 + before.length + 1 + between.length + 1 + behind.length)).kind =
      .punctuator .closeParen
  body : tokens.HasWordsAt
    (position + 1 + before.length + 1 + between.length + 1 + behind.length + 1) words

theorem ForLoopAt.of_words {tokens : TokenStream} {position : Nat}
    {before between behind words : List Word}
    (has : tokens.HasWordsAt position (.openParen :: (before ++ .semicolon ::
      (between ++ .semicolon :: (behind ++ .closeParen :: words))))) :
    ForLoopAt tokens position before between behind words := by
  obtain ⟨isOpen, hasRest⟩ := has
  rw [TokenStream.hasWordsAt_append] at hasRest
  obtain ⟨hasFirst, firstEnds, hasRest⟩ := hasRest
  rw [TokenStream.hasWordsAt_append] at hasRest
  obtain ⟨hasSecond, secondEnds, hasRest⟩ := hasRest
  rw [TokenStream.hasWordsAt_append] at hasRest
  obtain ⟨hasThird, isClosed, hasBody⟩ := hasRest
  exact ⟨congrArg Word.kind isOpen, hasFirst, congrArg Word.kind firstEnds, hasSecond,
    congrArg Word.kind secondEnds, hasThird, congrArg Word.kind isClosed, hasBody⟩

/-- The clauses and the body are read in a scope of the loop. -/
theorem forLoop {beginning condition step : Node} {before between behind : List Word}
    (isFirst : ReadsClause dialect beginning before)
    (isSecond : ReadsClause dialect condition between) (isThird : ReadsClause dialect step behind)
    (body : ReadsStatement dialect tree words) :
    ReadsStatement dialect ⟨.forLoop, spot, .none, [beginning, condition, step, tree]⟩
      (.keyword .forWord "for" :: .openParen :: (before ++ .semicolon ::
        (between ++ .semicolon :: (behind ++ .closeParen :: words)))) := by
  have text : (Node.statementText
      ⟨.forLoop, spot, .none, [beginning, condition, step, tree]⟩).toList =
      "for".toList ++ ' ' :: '(' :: (beginning.clauseText.toList ++
        ';' :: ' ' :: (condition.clauseText.toList ++ ';' :: ' ' :: (step.clauseText.toList ++
          ')' :: ' ' :: tree.statementText.toList))) := by
    simp [Node.statementText_forLoop]
  have lower : tree.height + 1 ≤
      Node.height ⟨.forLoop, spot, .none, [beginning, condition, step, tree]⟩ :=
    Node.height_child (by simp)
  have sameEnd : Node.endsOpen ⟨.forLoop, spot, .none, [beginning, condition, step, tree]⟩ =
      tree.endsOpen :=
    rfl
  refine ofWord Productions.forLoop rfl (by decide) (fun _ => rfl) ?_ ?_
  · intro next
    rw [text]
    have scansThird : ScansAs dialect
        (step.clauseText.toList ++ ')' :: ' ' :: tree.statementText.toList)
        (behind ++ .closeParen :: words) next :=
      (isThird.scans _ _ (.inr rfl)).append (.closeParen (.space (body.scans next)))
    have scansSecond := (isSecond.scans _ _ (.inl rfl)).append (.semicolon (.space scansThird))
    have scansFirst := (isFirst.scans _ _ (.inl rfl)).append (.semicolon (.space scansSecond))
    exact .spacedWord rfl rfl (.openParen scansFirst)
  · intro context state isC plain isWord has noElse levels enough
    have parts := ForLoopAt.of_words has
    have stop : state.position + 1 + (Word.openParen :: (before ++ .semicolon ::
        (between ++ .semicolon :: (behind ++ .closeParen :: words)))).length =
        state.position + 1 + 1 + before.length + 1 + between.length + 1 + behind.length + 1 +
          words.length := by
      simp only [List.length_cons, List.length_append]
      omega
    rw [stop, sameEnd] at noElse
    rw [stop]
    -- From here on everything is read in the scope of the loop.
    have inside := plain.enter
    obtain ⟨first, sameFirst, readFirst⟩ := isFirst.beginning isC
      (inside.movedTo (state.position + 1 + 1)) parts.first parts.firstEnds levels (by omega)
    obtain ⟨second, sameSecond, readSecond⟩ := isSecond.reads .semicolon (.inl rfl) isC
      (inside.movedTo _) parts.second parts.secondEnds levels (by omega)
    obtain ⟨third, sameThird, readThird⟩ := isThird.reads .closeParen (.inr rfl) isC
      (inside.movedTo _) parts.third parts.closes levels (by omega)
    obtain ⟨inner, sameBody, readBody⟩ :=
      body.reads isC (inside.movedTo _) parts.body noElse levels (by omega)
    refine ⟨.ofChildren .forLoop (context.tokens.get state.position).location
      [first, second, third, inner], ?_, ?_⟩
    · simp [Node.ofChildren, Node.sameShape, Node.sameShapes, sameFirst, sameSecond, sameThird,
        sameBody]
    · simp [Productions.forLoop, inNewScope_apply, expectForSemicolon,
        expectClosingParen, isWord, parts.opens, readFirst, readSecond, parts.secondEnds, readThird,
        parts.closes, readBody]

end ReadsStatement

end CFrontEnd
