import CFrontEnd.Proofs.Expression.Completeness
import CFrontEnd.Proofs.Expression.Soundness
import CFrontEnd.Proofs.Grammar.Start

/-!
The rule for expressions recognizes the grammar of operator expressions.
-/

namespace CFrontEnd

/-- C17 without extensions. -/
def standardC17 : Language := cLanguage ⟨.c17, false⟩

section

variable {tokens : TokenStream} {diagnostics : Diagnostics}
  (allowed : ∀ token ∈ tokens.body.toList, token.IsOperatorToken)
include allowed

theorem OperatorContext.ofTokens : OperatorContext (standardC17.context tokens) :=
  ⟨rfl, by simp [Language.context, standardC17], allowed⟩

/-- The stream ends only behind its last token. -/
theorem TokenStream.size_le_of_end {position : Nat}
    (ends : (tokens.get position).kind = .endOfFile) : tokens.body.size ≤ position := by
  by_cases inside : position < tokens.body.size
  · have operator := allowed tokens.body[position] (by simp)
    simp only [TokenStream.get, inside, dite_true] at ends
    simp [Token.IsOperatorToken, ends] at operator
  · omega

/-- Without a problem, the whole text is an expression and the tree is what it stands for. -/
theorem derives_of_parseRule
    (noProblem : (standardC17.parseRule "expression" tokens diagnostics).2 = diagnostics) :
    ∃ tree, (standardC17.parseRule "expression" tokens diagnostics).1 = some tree ∧
      Derives standardC17 .expression tokens.body.toList tree := by
  have operators := OperatorContext.ofTokens allowed
  have sound := (Productions.sound_ofLevels operators maxNesting).assignment.expression
    (.first diagnostics) ⟨rfl, fun _ => rfl⟩
  rcases sound with ⟨stretch, tree, run, has, derives⟩ | ⟨place, problem, next, run, reported⟩
  · by_cases ends : (tokens.get (0 + stretch.length)).kind = .endOfFile
    · have parsed := Language.parseRule_ok .expression run ends
      refine ⟨tree, congrArg Prod.fst parsed, ?_⟩
      have whole : stretch.length = tokens.body.size := by
        have atMost : stretch.length ≤ tokens.body.size - 0 := has.length_le
        have atLeast := TokenStream.size_le_of_end allowed ends
        omega
      have same : stretch = tokens.body.toList := has.eq_body whole
      exact same ▸ derives
    · have parsed := Language.parseRule_unfinished .expression run rfl ends
      exact absurd ((congrArg Prod.snd parsed).symm.trans noProblem) (Diagnostics.report_ne _ _ _ _)
  · have parsed := Language.parseRule_error .expression run
    rw [reported] at parsed
    exact absurd ((congrArg Prod.snd parsed).symm.trans noProblem) (Diagnostics.report_ne _ _ _ _)

/-- An expression is read with the tree it stands for, or nests too deeply. -/
theorem parseRule_of_derives {tree : Node}
    (derives : Derives standardC17 .expression tokens.body.toList tree) :
    standardC17.parseRule "expression" tokens diagnostics = (some tree, diagnostics) ∨
    ∃ place, standardC17.parseRule "expression" tokens diagnostics =
      (none, diagnostics.report .grammatical place "code is nested too deeply") := by
  have operators := OperatorContext.ofTokens allowed
  have ends : (tokens.get (0 + tokens.body.toList.length)).kind = .endOfFile := by
    simpa using tokens.get_size
  have completes :=
    Derives.completes operators derives maxNesting (.first diagnostics) ⟨rfl, fun _ => rfl⟩
    tokens.hasAt_body (Phrase.endsBefore_end _ ends)
  have read := completes.trans
    (.inl (Productions.commaStep_none fun comma => nomatch ends.symm.trans comma))
  rcases read with run | ⟨_, place, next, run, reported⟩
  · left
    exact Language.parseRule_ok .expression run ends
  · right
    refine ⟨place, ?_⟩
    have parsed := Language.parseRule_error .expression run
    rwa [reported] at parsed

end

/-- The rule for expressions accepts exactly the texts of the grammar that do not nest too deeply, and
gives each the tree that it stands for. -/
theorem parseRule_expression_recognizes (tokens : TokenStream) (diagnostics : Diagnostics)
    (allowed : ∀ token ∈ tokens.body.toList, token.IsOperatorToken) :
    ((standardC17.parseRule "expression" tokens diagnostics).2 = diagnostics →
      ∃ tree, (standardC17.parseRule "expression" tokens diagnostics).1 = some tree ∧
        Derives standardC17 .expression tokens.body.toList tree) ∧
    ∀ tree, Derives standardC17 .expression tokens.body.toList tree →
      standardC17.parseRule "expression" tokens diagnostics = (some tree, diagnostics) ∨
      ∃ place, standardC17.parseRule "expression" tokens diagnostics =
        (none, diagnostics.report .grammatical place "code is nested too deeply") :=
  ⟨derives_of_parseRule allowed, fun _ => parseRule_of_derives allowed⟩

/-- The tokens of `a + b`. -/
def sumTokens : TokenStream where
  body := #[⟨.identifier, "a", ⟨"<input>", 1, 1, 0⟩, none⟩,
    ⟨.operator .plus, "+", ⟨"<input>", 1, 3, 2⟩, none⟩,
    ⟨.identifier, "b", ⟨"<input>", 1, 5, 4⟩, none⟩]
  endLocation := ⟨"<input>", 1, 6, 5⟩

theorem parseRule_expression_recognizes_sum :
    (∀ token ∈ sumTokens.body.toList, token.IsOperatorToken) ∧
    ((standardC17.parseRule "expression" sumTokens .empty).2 = .empty →
      ∃ tree, (standardC17.parseRule "expression" sumTokens .empty).1 = some tree ∧
        Derives standardC17 .expression sumTokens.body.toList tree) ∧
    ∀ tree, Derives standardC17 .expression sumTokens.body.toList tree →
      standardC17.parseRule "expression" sumTokens .empty = (some tree, .empty) ∨
      ∃ place, standardC17.parseRule "expression" sumTokens .empty =
        (none, Diagnostics.empty.report .grammatical place "code is nested too deeply") := by
  have allowed : ∀ token ∈ sumTokens.body.toList, token.IsOperatorToken := by
    simp [sumTokens, Token.IsOperatorToken]
  exact ⟨allowed, parseRule_expression_recognizes sumTokens .empty allowed⟩

end CFrontEnd
