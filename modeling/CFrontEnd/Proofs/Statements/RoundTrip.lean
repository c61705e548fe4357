import CFrontEnd.Proofs.Spelling.ExpressionRoundTrip
import CFrontEnd.Proofs.Statements.Blocks

/-!
Statements come back from their texts, although no braces are added to them.
-/

namespace CFrontEnd

variable {dialect : Dialect}

/-- Every tree of statements is written with words that are read as the tree. -/
theorem IsStatementTree.readsStatement {tree : Node} (isTree : IsStatementTree dialect tree) :
    ∃ words, ReadsStatement dialect tree words := by
  induction isTree with
  | empty => exact ⟨_, .empty⟩
  | expression isOperand =>
    obtain ⟨_, operand⟩ := isOperand.readsFromWord
    exact ⟨_, .expression operand⟩
  | compound _ inside =>
    obtain ⟨_, each⟩ := exists_wordLists inside
    exact ⟨_, .compound each⟩
  | ifThen isOperand _ inner =>
    obtain ⟨_, operand⟩ := isOperand.readsFromWord
    obtain ⟨_, taken⟩ := inner
    exact ⟨_, .ifThen operand taken⟩
  | ifElse isOperand closed _ _ inner other =>
    obtain ⟨_, operand⟩ := isOperand.readsFromWord
    obtain ⟨_, taken⟩ := inner
    obtain ⟨_, otherwise⟩ := other
    exact ⟨_, .ifElse operand closed taken otherwise⟩
  | whileLoop isOperand _ inner =>
    obtain ⟨_, operand⟩ := isOperand.readsFromWord
    obtain ⟨_, body⟩ := inner
    exact ⟨_, .whileLoop operand body⟩
  | doWhileLoop isOperand _ inner =>
    obtain ⟨_, operand⟩ := isOperand.readsFromWord
    obtain ⟨_, body⟩ := inner
    exact ⟨_, .doWhileLoop operand body⟩
  | forLoop isBeginning isCondition isStep _ inner =>
    obtain ⟨_, beginning⟩ := isBeginning.readsClause
    obtain ⟨_, condition⟩ := isCondition.readsClause
    obtain ⟨_, step⟩ := isStep.readsClause
    obtain ⟨_, body⟩ := inner
    exact ⟨_, .forLoop beginning condition step body⟩
  | switchStatement isOperand _ inner =>
    obtain ⟨_, operand⟩ := isOperand.readsFromWord
    obtain ⟨_, body⟩ := inner
    exact ⟨_, .switchStatement operand body⟩
  | caseLabel isOperand _ inner =>
    obtain ⟨_, operand⟩ := isOperand.readsFromWord
    obtain ⟨_, body⟩ := inner
    exact ⟨_, .caseLabel operand body⟩
  | defaultLabel _ inner =>
    obtain ⟨_, body⟩ := inner
    exact ⟨_, .defaultLabel body⟩
  | labeled isName _ inner =>
    obtain ⟨_, body⟩ := inner
    exact ⟨_, .labeled isName body⟩
  | returnNothing => exact ⟨_, .returnNothing⟩
  | returnValue isOperand =>
    obtain ⟨_, operand⟩ := isOperand.readsFromWord
    exact ⟨_, .returnValue operand⟩
  | breakStatement => exact ⟨_, .breakStatement⟩
  | continueStatement => exact ⟨_, .continueStatement⟩
  | gotoStatement isName => exact ⟨_, .gotoStatement isName⟩

/-- The text of a tree of statements is scanned and read without a problem, and gives a tree of the same
shape: each `else` goes to the `if` it was written for. -/
theorem parseRule_statementText (dialect : Dialect) (tree : Node)
    (isTree : IsStatementTree dialect tree) (low : tree.height ≤ 900) (name : String)
    (diagnostics : Diagnostics) :
    ∃ tokens node,
      tokenize (cLanguage dialect) ⟨name, tree.statementText⟩ diagnostics =
        (tokens, diagnostics) ∧
      (cLanguage dialect).parseRule "statement" tokens diagnostics = (some node, diagnostics) ∧
      node.sameShape tree = true := by
  obtain ⟨words, readsStatement⟩ := isTree.readsStatement
  obtain ⟨tokens, tokenized, isWords⟩ := (readsStatement.scans []).tokenize name diagnostics
  have isC : ((cLanguage dialect).context tokens).language = cLanguage dialect := rfl
  have plain : (ParseState.first diagnostics).IsPlain := ⟨rfl, fun _ => rfl⟩
  have has : tokens.HasWordsAt 0 words := isWords ▸ tokens.hasWordsAt_body
  have ends : (tokens.get (0 + words.length)).kind = .endOfFile :=
    TokenStream.get_behind_words isWords
  have reads : ReadsAs Productions.statement ((cLanguage dialect).context tokens)
      (.first diagnostics) (tree.height + 5) (0 + words.length) tree :=
    readsStatement.reads isC plain has fun _ isElse => by
      have noElse := ends.symm.trans isElse
      cases noElse
  obtain ⟨node, same, read⟩ := reads maxNesting (by rw [maxNesting]; omega)
  have parsed := Language.parseRule_ok .statement read ends
  exact ⟨tokens, node, tokenized, parsed, same⟩

/-- `if (a) while (b) L: if (c) { if (d) ; case 1: break; } else goto L;` -/
def sampleStatement : Node :=
  let spot : SourceLocation := ⟨"<input>", 1, 1, 0⟩
  let named (name : String) : Node := ⟨.identifier, spot, .name name, []⟩
  let one : Node := ⟨.integerLiteral, spot, .literal (.integer 1 ⟨false, 0⟩), []⟩
  let nothing : Node := ⟨.empty, spot, .none, []⟩
  let leaves : Node := ⟨.breakStatement, spot, .none, []⟩
  let inner : Node := ⟨.ifStatement, spot, .none, [named "d", nothing]⟩
  let braces : Node := ⟨.compound, spot, .none, [inner, ⟨.caseLabel, spot, .none, [one, leaves]⟩]⟩
  let goesBack : Node := ⟨.gotoStatement, spot, .name "L", []⟩
  let choice : Node := ⟨.ifStatement, spot, .none, [named "c", braces, goesBack]⟩
  let again : Node := ⟨.labeled, spot, .name "L", [choice]⟩
  ⟨.ifStatement, spot, .none, [named "a", ⟨.whileLoop, spot, .none, [named "b", again]⟩]⟩

theorem parseRule_statementText_sample :
    IsStatementTree ⟨.c89, false⟩ sampleStatement ∧ sampleStatement.height ≤ 900 ∧
      ∃ tokens node,
        tokenize (cLanguage ⟨.c89, false⟩) ⟨"<input>", sampleStatement.statementText⟩ .empty =
          (tokens, .empty) ∧
        (cLanguage ⟨.c89, false⟩).parseRule "statement" tokens .empty = (some node, .empty) ∧
        node.sameShape sampleStatement = true := by
  have named (name : String) (isName : IsName ⟨.c89, false⟩ name)
      (notBuiltin : name ≠ "__builtin_va_list") :
      IsOperand ⟨.c89, false⟩ ⟨.identifier, ⟨"<input>", 1, 1, 0⟩, .name name, []⟩ :=
    .identifier isName notBuiltin
  have isTree : IsStatementTree ⟨.c89, false⟩ sampleStatement := by
    refine .ifThen (named "a" (by decide) (by decide)) (.whileLoop (named "b" (by decide) (by decide))
      (.labeled (by decide) (.ifElse (named "c" (by decide) (by decide)) rfl (.compound ?_)
        (.gotoStatement (by decide)))))
    intro item isItem
    simp only [List.mem_cons, List.not_mem_nil, or_false] at isItem
    obtain rfl | rfl := isItem
    · exact .ifThen (named "d" (by decide) (by decide)) .empty
    · exact .caseLabel (.integer ⟨by decide, by decide⟩) .breakStatement
  have low : sampleStatement.height ≤ 900 := by decide
  exact ⟨isTree, low,
    parseRule_statementText ⟨.c89, false⟩ sampleStatement isTree low "<input>" .empty⟩

example : sampleStatement.statementText =
    "if (a) while (b) L: if (c) \x7b if (d) ; case 1: break; \x7d else goto L;" := by
  decide +kernel

end CFrontEnd
