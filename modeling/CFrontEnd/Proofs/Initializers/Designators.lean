import CFrontEnd.Proofs.Spelling.ExpressionRoundTrip
import CFrontEnd.Proofs.Statements.Parts

/-!
The steps from a value in a list to the part that it initializes: how they are written, and that they
are read from that.
-/

namespace CFrontEnd

open Parse Productions

/-- A step to a member, to an element, or to a range of elements. -/
inductive IsDesignator : Node → Prop
  | field {spot : SourceLocation} {name : String} (isName : IsName gnuC17 name) :
      IsDesignator ⟨.fieldDesignator, spot, .name name, []⟩
  | index {spot : SourceLocation} {index : Node} (isTree : IsOperatorTree index) :
      IsDesignator ⟨.indexDesignator, spot, .none, [index]⟩
  | range {spot : SourceLocation} {low high : Node} (isLow : IsOperatorTree low)
      (isHigh : IsOperatorTree high) : IsDesignator ⟨.rangeDesignator, spot, .none, [low, high]⟩

namespace Productions

variable {deeper : Productions} {context : ParseContext} {state : ParseState} {path : Array Node}

/-- One more step on the way, if there is one. -/
def addDesignator (deeper : Productions) (path : Array Node) : Parse (ForInStep (Array Node)) := do
  let place ← location
  if ← consume (.operator .dot) then return .yield (path.push (← fieldDesignator))
  else if ← consumePunctuator .openBracket then
    return .yield (path.push (← indexDesignator deeper place))
  else return .done path

theorem designators_eq (deeper : Productions) :
    designators deeper = iterate #[] (addDesignator deeper) :=
  rfl

theorem addDesignator_done
    (noField : (context.tokens.get state.position).kind ≠ .operator .dot)
    (noIndex : (context.tokens.get state.position).kind ≠ .punctuator .openBracket) :
    addDesignator deeper path context state = .ok (.done path) state := by
  simp [addDesignator, noField, noIndex]

theorem addDesignator_field
    (point : (context.tokens.get state.position).kind = .operator .dot)
    (isName : (context.tokens.get (state.position + 1)).kind = .identifier) :
    addDesignator deeper path context state =
      .ok (.yield (path.push (.named .fieldDesignator
        (context.tokens.get (state.position + 1)).location
        (context.tokens.get (state.position + 1)).lexeme)))
        (state.movedTo (state.position + 2)) := by
  simp [addDesignator, fieldDesignator, point, isName]

theorem addDesignator_index {low : Node} {stop : Nat}
    (opens : (context.tokens.get state.position).kind = .punctuator .openBracket)
    (read : deeper.conditional context (state.movedTo (state.position + 1)) =
      .ok low (state.movedTo stop))
    (closes : (context.tokens.get stop).kind = .punctuator .closeBracket) :
    addDesignator deeper path context state =
      .ok (.yield (path.push (.ofChildren .indexDesignator
        (context.tokens.get state.position).location [low])))
        (state.movedTo (stop + 1)) := by
  simp [addDesignator, indexDesignator, expectBracketEnd, opens, read, closes]

theorem addDesignator_range {low high : Node} {place stop : Nat}
    (opens : (context.tokens.get state.position).kind = .punctuator .openBracket)
    (readLow : deeper.conditional context (state.movedTo (state.position + 1)) =
      .ok low (state.movedTo place))
    (dots : (context.tokens.get place).kind = .punctuator .ellipsis)
    (readHigh : deeper.conditional context (state.movedTo (place + 1)) =
      .ok high (state.movedTo stop))
    (closes : (context.tokens.get stop).kind = .punctuator .closeBracket) :
    addDesignator deeper path context state =
      .ok (.yield (path.push (.ofChildren .rangeDesignator
        (context.tokens.get state.position).location [low, high])))
        (state.movedTo (stop + 1)) := by
  simp [addDesignator, indexDesignator, expectBracketEnd, opens, readLow, dots, readHigh, closes]

end Productions

/-! ## One step -/

/-- The words that the step is written with, and that they are read as the step. -/
structure ReadsDesignator (step : Node) (words : List Word) : Prop where
  begins : ∃ head tail, step.expressionText.toList = head :: tail ∧ (head = '.' ∨ head = '[')
  scans : ∀ next, EndsWord next → ScansAs gnuC17 step.expressionText.toList words next
  opens : ∃ first rest, words = first :: rest ∧
    (first.kind = .operator .dot ∨ first.kind = .punctuator .openBracket)
  reads : ∀ {context : ParseContext} {state : ParseState}, GnuContext context → state.IsPlain →
    context.tokens.HasWordsAt state.position words → ∀ levels, 6 * step.height + 1 ≤ levels →
    ∀ path : Array Node, ∃ node, node.sameShape step = true ∧
      addDesignator (ofLevels levels) path context state =
        .ok (.yield (path.push node)) (state.movedTo (state.position + words.length))

namespace ReadsDesignator

variable {spot : SourceLocation} {low high : Node} {words lowWords highWords : List Word}

theorem field {name : String} (isName : IsName gnuC17 name) :
    ReadsDesignator ⟨.fieldDesignator, spot, .name name, []⟩
      [.operator .dot ".", .identifier name] := by
  have known : (TokenKind.operator .dot, ".") ∈ cSymbolKinds := by decide
  have text : (Node.expressionText ⟨.fieldDesignator, spot, .name name, []⟩).toList =
      ".".toList ++ name.toList :=
    String.toList_append
  refine ⟨⟨'.', name.toList, text, .inl rfl⟩, ?_, ⟨_, _, rfl, .inl rfl⟩, ?_⟩
  · intro next ends
    rw [text]
    exact .symbolThen known (.point_name isName.1 next) (.identifier isName.1 isName.2 ends)
  · intro context state _ _ has levels _ path
    obtain ⟨isIdentifier, lexeme, _⟩ := Token.word_eq_mk.mp has.2.1
    refine ⟨_, ?_, addDesignator_field (congrArg Word.kind has.1) isIdentifier⟩
    simp [Node.named, Node.leaf, Node.sameShape, Node.sameShapes, lexeme]

theorem index {index : Node} (inside : ReadsBack index words) :
    ReadsDesignator ⟨.indexDesignator, spot, .none, [index]⟩
      (.openBracket :: (words ++ [.closeBracket])) := by
  have lower : index.height + 1 ≤ Node.height ⟨.indexDesignator, spot, .none, [index]⟩ :=
    Node.height_child (by simp)
  have text : (Node.expressionText ⟨.indexDesignator, spot, .none, [index]⟩).toList =
      '[' :: (index.expressionText.toList ++ [']']) := by
    change ("[" ++ index.expressionText ++ "]").toList = _
    simp
  refine ⟨⟨_, _, text, .inr rfl⟩, ?_, ⟨_, _, rfl, .inr rfl⟩, ?_⟩
  · intro next _
    rw [text]
    exact .openBracket ((inside.scansInside next (by decide) (by decide)).append
      (.closeBracket (.nil next)))
  · intro context state gnu plain has levels enough path
    rw [TokenStream.hasWordsAt_cons, TokenStream.hasWordsAt_append,
      TokenStream.hasWordsAt_cons] at has
    obtain ⟨opens, hasIndex, closes, _⟩ := has
    have isClosing : (context.tokens.get (state.position + 1 + words.length)).kind =
      .punctuator .closeBracket := congrArg Word.kind closes
    have plainIndex := plain.movedTo (state.position + 1)
    obtain ⟨node, same, read⟩ := (inside.reads gnu plainIndex hasIndex).conditional gnu.language
      (inside.starts gnu plainIndex hasIndex)
      (by rw [ParseState.position_movedTo, isClosing]; rfl) levels (by omega)
    rw [length_enclosed]
    refine ⟨_, ?_, addDesignator_index (congrArg Word.kind opens) read isClosing⟩
    simp [Node.ofChildren, Node.sameShape, Node.sameShapes, same]

theorem range (first : ReadsBack low lowWords) (second : ReadsBack high highWords) :
    ReadsDesignator ⟨.rangeDesignator, spot, .none, [low, high]⟩
      (.openBracket :: ((lowWords ++ .ellipsis :: highWords) ++ [.closeBracket])) := by
  have lowLower : low.height + 1 ≤ Node.height ⟨.rangeDesignator, spot, .none, [low, high]⟩ :=
    Node.height_child (by simp)
  have highLower : high.height + 1 ≤ Node.height ⟨.rangeDesignator, spot, .none, [low, high]⟩ :=
    Node.height_child (by simp)
  have known : (TokenKind.punctuator .ellipsis, "...") ∈ cSymbolKinds := by decide
  have text : (Node.expressionText ⟨.rangeDesignator, spot, .none, [low, high]⟩).toList =
      '[' :: ((low.expressionText.toList ++ ' ' :: ("...".toList ++ ' ' ::
        high.expressionText.toList)) ++ [']']) := by
    change ("[" ++ low.expressionText ++ " ... " ++ high.expressionText ++ "]").toList = _
    simp
  refine ⟨⟨_, _, text, .inr rfl⟩, ?_, ⟨_, _, rfl, .inr rfl⟩, ?_⟩
  · intro next _
    have scansHigh : ScansAs gnuC17 high.expressionText.toList highWords (']' :: next) :=
      second.scansInside next (by decide) (by decide)
    have scansBoth := (first.scansInside _ (by decide) (by decide)).append
      (.space (.spacedSymbol known scansHigh))
    rw [text]
    exact .openBracket (scansBoth.append (.closeBracket (.nil next)))
  · intro context state gnu plain has levels enough path
    rw [TokenStream.hasWordsAt_cons, TokenStream.hasWordsAt_append, TokenStream.hasWordsAt_append,
      TokenStream.hasWordsAt_cons, TokenStream.hasWordsAt_cons, length_append_cons] at has
    obtain ⟨opens, ⟨hasLow, dots, hasHigh⟩, closes, _⟩ := has
    have isEllipsis : (context.tokens.get (state.position + 1 + lowWords.length)).kind =
      .punctuator .ellipsis := congrArg Word.kind dots
    have isClosing : (context.tokens.get
      (state.position + 1 + lowWords.length + 1 + highWords.length)).kind =
      .punctuator .closeBracket := congrArg Word.kind closes
    have plainLow := plain.movedTo (state.position + 1)
    have plainHigh := plain.movedTo (state.position + 1 + lowWords.length + 1)
    -- Both bounds are read as conditional expressions, which the dots and the bracket end.
    obtain ⟨lowNode, lowSame, readLow⟩ := (first.reads gnu plainLow hasLow).conditional gnu.language
      (first.starts gnu plainLow hasLow)
      (by rw [ParseState.position_movedTo, isEllipsis]; rfl) levels (by omega)
    obtain ⟨highNode, highSame, readHigh⟩ :=
      (second.reads gnu plainHigh hasHigh).conditional gnu.language
        (second.starts gnu plainHigh hasHigh)
        (by rw [ParseState.position_movedTo, isClosing]; rfl) levels (by omega)
    rw [length_enclosed, length_append_cons]
    refine ⟨_, ?_, addDesignator_range (congrArg Word.kind opens) readLow isEllipsis readHigh
      isClosing⟩
    simp [Node.ofChildren, Node.sameShape, Node.sameShapes, lowSame, highSame]

theorem endsWord {step : Node} (reads : ReadsDesignator step words) (later : List Char) :
    EndsWord (step.expressionText.toList ++ later) := by
  obtain ⟨head, tail, text, isHead⟩ := reads.begins
  rw [text]
  rcases isHead with rfl | rfl
  · exact .cons _ (by decide)
  · exact .cons _ (by decide)

end ReadsDesignator

theorem IsDesignator.readsDesignator {step : Node} (isDesignator : IsDesignator step) :
    ∃ words, ReadsDesignator step words := by
  cases isDesignator with
  | field isName => exact ⟨_, .field isName⟩
  | index isTree =>
    obtain ⟨_, inside⟩ := isTree.readsBack
    exact ⟨_, .index inside⟩
  | range isLow isHigh =>
    obtain ⟨_, first⟩ := isLow.readsBack
    obtain ⟨_, second⟩ := isHigh.readsBack
    exact ⟨_, .range first second⟩

/-! ## Several steps -/

variable {path : List Node} {wordLists : List (List Word)}

namespace ReadsDesignator

theorem scansPath (each : List.Forall₂ ReadsDesignator path wordLists) {next : List Char}
    (ends : EndsWord next) :
    ScansAs gnuC17 (path.flatMap fun step => step.expressionText.toList) wordLists.flatten next := by
  induction each with
  | nil => exact .nil next
  | @cons step words path wordLists first rest ih =>
    refine (first.scans _ ?_).append ih
    cases rest with
    | nil => exact ends
    | cons second _ =>
      rw [← List.flatMap_def, List.flatMap_cons, List.append_assoc]
      exact second.endsWord _

/-- The steps are read one by one, behind those read before. -/
theorem readsPath (each : List.Forall₂ ReadsDesignator path wordLists) {context : ParseContext}
    {state : ParseState} (gnu : GnuContext context) (plain : state.IsPlain)
    (has : context.tokens.HasWordsAt state.position wordLists.flatten) {levels : Nat}
    (enough : ∀ step ∈ path, 6 * step.height + 1 ≤ levels) (before : Array Node) :
    ∃ nodes, Node.sameShapes nodes path = true ∧
      repeatFrom (addDesignator (ofLevels levels)) before context state =
        repeatFrom (addDesignator (ofLevels levels)) (before ++ nodes.toArray) context
          (state.movedTo (state.position + wordLists.flatten.length)) := by
  induction each generalizing before state with
  | nil => exact ⟨[], rfl, by simp⟩
  | @cons step words path wordLists first _ ih =>
    rw [List.flatten_cons, TokenStream.hasWordsAt_append] at has
    obtain ⟨word, rest, isFirst, start⟩ := first.opens
    obtain ⟨node, same, read⟩ := first.reads gnu plain has.1 levels (enough step (by simp)) before
    obtain ⟨nodes, sameRest, readRest⟩ := ih (plain.movedTo (state.position + words.length)) has.2
      (fun other isOther => enough other (.tail _ isOther)) (before.push node)
    have forward : state.position < state.position + words.length := by simp [isFirst]
    have notEnd : (context.tokens.get state.position).kind ≠ .endOfFile := by
      rw [isFirst] at has
      have isWord : (context.tokens.get state.position).kind = word.kind :=
        congrArg Word.kind has.1.1
      rcases start with same | same <;> simp [isWord, same]
    refine ⟨node :: nodes, by simp [Node.sameShapes, same, sameRest], ?_⟩
    rw [repeatFrom_yield read (ParseState.remaining_movedTo_lt notEnd forward), readRest]
    simp [Nat.add_assoc]

end ReadsDesignator

end CFrontEnd
