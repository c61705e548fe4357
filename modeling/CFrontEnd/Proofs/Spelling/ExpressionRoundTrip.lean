import CFrontEnd.Proofs.Grammar.Start
import CFrontEnd.Proofs.Spelling.Expressions

/-!
Expressions come back from their texts: what is written from a tree is read as a tree of the same
shape.
-/

namespace CFrontEnd

/-- Every tree of operators is written with words that are read as the tree. -/
theorem IsOperatorTree.readsBack {tree : Node} (isTree : IsOperatorTree tree) :
    ∃ words, ReadsBack tree words := by
  induction isTree with
  | identifier isName notBuiltin => exact ⟨_, .identifier isName notBuiltin⟩
  | integer isInteger => exact ⟨_, .integer isInteger⟩
  | labelAddress isName =>
    exact ⟨_, (ReadsInside.labelAddress isName).enclosed _ (Node.expressionText_labelAddress _)
      (by simp)⟩
  | binary operator _ _ first second =>
    obtain ⟨_, left⟩ := first
    obtain ⟨_, right⟩ := second
    obtain ⟨_, inside⟩ := ReadsInside.binary operator left right
    exact ⟨_, inside.enclosed _ (Node.expressionText_infix operator) (by simp)⟩
  | unary operator _ inner =>
    obtain ⟨_, operand⟩ := inner
    cases place : operator.isWrittenAfter with
    | true =>
      obtain ⟨_, inside⟩ := ReadsInside.unaryAfter place operand
      exact ⟨_, inside.enclosed _ (Node.expressionText_after place) (by simp)⟩
    | false =>
      obtain ⟨_, inside⟩ := ReadsInside.unaryBefore place operand
      exact ⟨_, inside.enclosed _ (Node.expressionText_before place) (by simp)⟩
  | assignment operator _ _ first second =>
    obtain ⟨_, target⟩ := first
    obtain ⟨_, value⟩ := second
    obtain ⟨_, inside⟩ := ReadsInside.assignment operator target value
    exact ⟨_, inside.enclosed _ (Node.expressionText_assignment operator) (by simp)⟩
  | conditional _ _ _ first second third =>
    obtain ⟨_, condition⟩ := first
    obtain ⟨_, value⟩ := second
    obtain ⟨_, otherwise⟩ := third
    exact ⟨_, (ReadsInside.conditional condition value otherwise).enclosed _
      Node.expressionText_conditional (by simp)⟩
  | binaryConditional _ _ first second =>
    obtain ⟨_, condition⟩ := first
    obtain ⟨_, otherwise⟩ := second
    obtain ⟨_, inside⟩ := ReadsInside.binaryConditional condition otherwise
    exact ⟨_, inside.enclosed _ Node.expressionText_binaryConditional (by simp)⟩
  | comma _ _ first second =>
    obtain ⟨_, left⟩ := first
    obtain ⟨_, right⟩ := second
    obtain ⟨_, inside⟩ := ReadsInside.comma left right
    exact ⟨_, inside.enclosed _ Node.expressionText_comma (by simp)⟩
  -- What is written behind its operand is not put in parentheses, so these are read back as they
  -- are.
  | call _ _ callee arguments =>
    obtain ⟨_, base⟩ := callee
    exact base.call arguments
  | subscript _ _ array inner =>
    obtain ⟨_, base⟩ := array
    obtain ⟨_, index⟩ := inner
    exact base.subscript index
  | arrow isName _ inner =>
    obtain ⟨_, base⟩ := inner
    exact base.arrow isName
  | member isName notBare _ inner =>
    obtain ⟨_, base⟩ := inner
    exact base.member isName notBare
  | sizeofExpression _ inner =>
    obtain ⟨_, operand⟩ := inner
    exact ⟨_, (ReadsInside.measured .sizeofWord "sizeof" (by decide) (by decide) rfl
      (fun deeper => Productions.unaryRule_sizeof) operand).enclosed _ Node.expressionText_sizeof
      (by simp)⟩
  | alignofExpression _ inner =>
    obtain ⟨_, operand⟩ := inner
    exact ⟨_, (ReadsInside.measured .alignofWord "_Alignof" (by decide) (by decide) rfl
      (fun deeper => Productions.unaryRule_alignof) operand).enclosed _ Node.expressionText_alignof
      (by simp)⟩

/-- What is written with words that are read as a tree comes back from its text, if it is not too
high. -/
theorem ReadsBack.parseRule {tree : Node} {words : List Word} (readsBack : ReadsBack tree words)
    (low : 6 * tree.height + 8 ≤ maxNesting) (name : String) (diagnostics : Diagnostics) :
    ∃ tokens node,
      tokenize (cLanguage gnuC17) ⟨name, tree.expressionText⟩ diagnostics =
        (tokens, diagnostics) ∧
      (cLanguage gnuC17).parseRule "expression" tokens diagnostics = (some node, diagnostics) ∧
      node.sameShape tree = true := by
  obtain ⟨tokens, tokenized, isWords⟩ :=
    (readsBack.scans [] .nil (by simp)).tokenize name diagnostics
  have gnu : GnuContext ((cLanguage gnuC17).context tokens) :=
    ⟨rfl, by simp [Language.context, gnuC17]⟩
  have plain : (ParseState.first diagnostics).IsPlain := ⟨rfl, fun _ => rfl⟩
  have has : tokens.HasWordsAt 0 words := isWords ▸ tokens.hasWordsAt_body
  have ends : (tokens.get (0 + words.length)).kind = .endOfFile :=
    TokenStream.get_behind_words isWords
  have reads : ReadsAs Productions.expression ((cLanguage gnuC17).context tokens)
      (.first diagnostics) (6 * tree.height + 8) (0 + words.length) tree :=
    (readsBack.reads gnu plain has).expression gnu.language (readsBack.starts gnu plain has)
      (by rw [Language.tokens_context, ends]; rfl)
      (by rw [Language.tokens_context, ends]; decide)
  obtain ⟨node, same, read⟩ := reads maxNesting low
  have parsed := Language.parseRule_ok .expression read ends
  exact ⟨tokens, node, tokenized, parsed, same⟩

/-- The text of a tree of operators is scanned and read without a problem, and gives a tree of the same
shape. -/
theorem parseRule_expressionText (tree : Node) (isTree : IsOperatorTree tree)
    (low : tree.height ≤ 150) (name : String) (diagnostics : Diagnostics) :
    ∃ tokens node,
      tokenize (cLanguage gnuC17) ⟨name, tree.expressionText⟩ diagnostics =
        (tokens, diagnostics) ∧
      (cLanguage gnuC17).parseRule "expression" tokens diagnostics = (some node, diagnostics) ∧
      node.sameShape tree = true := by
  obtain ⟨words, readsBack⟩ := isTree.readsBack
  exact readsBack.parseRule (by rw [maxNesting]; omega) name diagnostics

/-- The tree of `(f(x)[1u] = (-y))`. -/
def sampleTree : Node :=
  let spot : SourceLocation := ⟨"<input>", 1, 1, 0⟩
  let named (name : String) : Node := ⟨.identifier, spot, .name name, []⟩
  let call : Node := ⟨.call, spot, .none, [named "f", named "x"]⟩
  let one : Node := ⟨.integerLiteral, spot, .literal (.integer 1 ⟨true, 0⟩), []⟩
  let minus : Node := ⟨.unary .minus, spot, .none, [named "y"]⟩
  ⟨.assignment .assign, spot, .none, [⟨.subscript, spot, .none, [call, one]⟩, minus]⟩

theorem parseRule_expressionText_sample :
    IsOperatorTree sampleTree ∧ sampleTree.height ≤ 150 ∧ ∃ tokens node,
      tokenize (cLanguage gnuC17) ⟨"<input>", sampleTree.expressionText⟩ .empty =
        (tokens, .empty) ∧
      (cLanguage gnuC17).parseRule "expression" tokens .empty = (some node, .empty) ∧
      node.sameShape sampleTree = true := by
  have named (name : String) (isName : IsName gnuC17 name)
      (notBuiltin : name ≠ "__builtin_va_list") :
      IsOperatorTree ⟨.identifier, ⟨"<input>", 1, 1, 0⟩, .name name, []⟩ :=
    .identifier isName notBuiltin
  have isTree : IsOperatorTree sampleTree := by
    refine .assignment _ (.subscript (.call (named "f" (by decide) (by decide)) ?_) ?_)
      (.unary _ (named "y" (by decide) (by decide)))
    · intro argument isArgument
      obtain rfl := List.mem_singleton.mp isArgument
      exact named "x" (by decide) (by decide)
    · exact .integer ⟨by decide, by decide⟩
  have low : sampleTree.height ≤ 150 := by decide
  exact ⟨isTree, low, parseRule_expressionText sampleTree isTree low "<input>" .empty⟩

end CFrontEnd
