import CFrontEnd.Proofs.Conduct.StartRule
import CFrontEnd.Proofs.Nesting.Operands
import CFrontEnd.Proofs.Recovery.Program
import CFrontEnd.Proofs.Types.BuiltinNames

/-!
Texts of declarations whose initial values stand behind parentheses and minus signs. A declaration that
takes more levels than there are is passed over with one problem, and the next one has all levels again.
-/

namespace CFrontEnd

/-! ## Words and trees -/

namespace Opening

/-- How many levels it takes to read the operand as an initial value. -/
def levels (openings : List Opening) : Nat :=
  4 + 4 * openings.count .parenthesis + 2 * openings.count .minus

theorem levels_eq (openings : List Opening) : levels openings = castLevels openings + 2 := by
  unfold levels castLevels
  omega

/-- `int x = operand;` -/
def declarationWords (openings : List Opening) : List Word :=
  .int :: .identifier "x" :: .operator .assign "=" :: (operandWords openings ++ [.semicolon])

theorem length_declarationWords (openings : List Opening) :
    (declarationWords openings).length = (operandWords openings).length + 4 := by
  simp [declarationWords]

/-- `int x = operand;` for each of the operands, and `int after;`. -/
def programWords (operands : List (List Opening)) : List Word :=
  operands.flatMap declarationWords ++ [.int, .identifier "after", .semicolon]

theorem mem_operandWords {openings : List Opening} {word : Word}
    (isWord : word ∈ operandWords openings) :
    word ∈ [Word.openParen, .operator .minus "-", .integer 1 {}, .closeParen] := by
  simp only [operandWords, List.mem_append, List.mem_map, List.mem_cons, List.mem_replicate] at isWord
  rcases isWord with ⟨opening, _, rfl⟩ | rfl | ⟨_, rfl⟩
  · cases opening <;> simp [Opening.word]
  · simp
  · simp

theorem isPassedOver_operandWords (openings : List Opening) :
    ∀ word ∈ operandWords openings, word.kind.isPassedOver = true := by
  intro word isWord
  have passed : ∀ word ∈ [Word.openParen, .operator .minus "-", .integer 1 {}, .closeParen],
      word.kind.isPassedOver = true := by
    decide
  exact passed word (mem_operandWords isWord)

end Opening

/-- `int x = -…-1;` with so many minus signs. -/
def Node.initializedObject (place : SourceLocation) (signs : Nat) : Node :=
  ⟨.variableDeclaration, place, .declaration { name := some "x" },
    [.named .builtinType place "int", .negatedOne place signs]⟩

/-- The kinds and messages of the problems, without their places. -/
def Diagnostics.remarks (diagnostics : Diagnostics) : List (DiagnosticKind × String) :=
  diagnostics.toList.map fun diagnostic => (diagnostic.kind, diagnostic.message)

/-- That a text nests too deeply. -/
def tooDeepRemark : DiagnosticKind × String :=
  (.grammatical, GrammarProblem.nestedTooDeeply.message)

open Parse Productions

section

variable {context : ParseContext} {state next : ParseState} {available : Nat} {dialect : Dialect}
  {openings : List Opening} {operands : List (List Opening)} {nodes more : Array Node}

/-! ## One declaration -/

/-- A declaration with an initial value stands at the current token. -/
structure AtInitialized (context : ParseContext) (state : ParseState) (openings : List Opening) :
    Prop where
  words : context.tokens.HasWordsAt state.position (Opening.declarationWords openings)
  calm : state.panicking = false

namespace AtInitialized

theorem isInt (declared : AtInitialized context state openings) :
    (context.tokens.get state.position).kind = .keyword .intWord :=
  congrArg Word.kind declared.words.1

theorem isName (declared : AtInitialized context state openings) :
    (context.tokens.get (state.position + 1)).kind = .identifier :=
  congrArg Word.kind declared.words.2.1

theorem named (declared : AtInitialized context state openings) :
    (context.tokens.get (state.position + 1)).lexeme = "x" :=
  congrArg Word.lexeme declared.words.2.1

theorem assigns (declared : AtInitialized context state openings) :
    (context.tokens.get (state.position + 2)).kind = .operator .assign :=
  congrArg Word.kind declared.words.2.2.1

theorem value (declared : AtInitialized context state openings) :
    context.tokens.HasWordsAt (state.position + 3) (Opening.operandWords openings) :=
  ((TokenStream.hasWordsAt_append _ _ _).mp declared.words.2.2.2).1

theorem ends (declared : AtInitialized context state openings) :
    (context.tokens.get
      (state.position + 3 + (Opening.operandWords openings).length)).kind =
        .punctuator .semicolon :=
  congrArg Word.kind ((TokenStream.hasWordsAt_append _ _ _).mp declared.words.2.2.2).2.1

/-- The state in front of the initial value, where the object is in scope. -/
def begun (state : ParseState) : ParseState :=
  (state.rescoped (state.scopes.addOrdinary "x")).movedTo (state.position + 3)

theorem atOperand (declared : AtInitialized context state openings) :
    AtOperand context (begun state) openings := by
  refine ⟨declared.value, declared.calm, ?_⟩
  have ends : (context.tokens.get
      ((begun state).position + (Opening.operandWords openings).length)).kind =
        .punctuator .semicolon := declared.ends
  rw [ends]
  rfl

theorem initDeclarator (declared : AtInitialized context state openings)
    (available : Nat) (body : Option (Parse Node)) :
    initDeclarator (ofLevels (available + 1)) body
        (intSpecifiers (context.tokens.get state.position).location false)
        (.named .builtinType (context.tokens.get state.position).location "int") context
        (state.movedTo (state.position + 1)) =
      match (ofLevels (available + 1)).assignment context (begun state) with
      | .ok value next =>
        .ok (initializedNode (intSpecifiers (context.tokens.get state.position).location false)
          (.named .builtinType (context.tokens.get state.position).location "int")
          { name := some "x", location := (context.tokens.get (state.position + 1)).location }
          value) next
      | .error reason next => .error reason next := by
  have alone : (context.tokens.get (state.position + 2)).kind.extendsDeclarator = false := by
    rw [declared.assigns]
    rfl
  have read : (ofLevels (available + 1)).declarator .named context
      (state.movedTo (state.position + 1)) =
        .ok { name := some "x", location := (context.tokens.get (state.position + 1)).location }
          ((state.movedTo (state.position + 1)).movedTo (state.position + 2)) := by
    rw [← declared.named]
    exact declaratorRule_alone declared.isName alone
  have noBrace : (context.tokens.get (begun state).position).kind ≠ .punctuator .openBrace := by
    rcases declared.atOperand.kind with kind | kind | kind <;> simp [kind]
  have whole : (ofLevels (available + 1)).initializer context (begun state) =
      (ofLevels (available + 1)).assignment context (begun state) := by
    simp [initializer, noBrace]
  rw [initDeclarator_initialized read declared.assigns rfl rfl, ← whole]
  rfl

/-- Where the words of the declaration end. -/
def stop (state : ParseState) (openings : List Opening) : Nat :=
  state.position + (Opening.declarationWords openings).length

theorem stop_eq (state : ParseState) (openings : List Opening) :
    stop state openings = (begun state).position + (Opening.operandWords openings).length + 1 := by
  rw [stop, Opening.length_declarationWords, begun, ParseState.position_movedTo]
  omega

/-- With levels enough the declaration becomes a node. -/
theorem externalDeclaration_fits (declared : AtInitialized context state openings)
    (isC : context.language = cLanguage dialect) (place : SourceLocation)
    (enough : Opening.levels openings ≤ available + 1) :
    ∃ node, node.sameShape (.initializedObject place (openings.count .minus)) = true ∧
      externalDeclaration (ofLevels (available + 1)) context state =
        .ok { nodes := #[node] } ((begun state).movedTo (stop state openings)) := by
  have takes := declared.atOperand.assignment isC place
  rw [← Opening.levels_eq] at takes
  obtain ⟨value, same, read⟩ := takes.reads (available + 1) enough
  have initialized := declared.initDeclarator available
    (some (functionBody (ofLevels (available + 1))))
  rw [read] at initialized
  have whole := declaration_single (specifiersRule_int declared.isInt declared.isName) rfl
    (baseType_int _ _) (by simp [declared.isName]) initialized body?_initializedNode declared.ends
  rw [externalDeclaration_ordinary declared.isInt (by decide), stop_eq]
  refine ⟨_, ?_, whole⟩
  simp [initializedNode, variableNode, intSpecifiers, Declarator.type, Node.initializedObject,
    Node.named, Node.leaf, Node.sameShape, Node.sameShapes, same]

/-- With fewer levels it is given up somewhere in its initial value. -/
theorem externalDeclaration_gaveUp (declared : AtInitialized context state openings)
    (isC : context.language = cLanguage dialect)
    (few : available + 1 < Opening.levels openings) :
    ∃ spot, (begun state).position ≤ spot ∧ spot + 1 < stop state openings ∧
      externalDeclaration (ofLevels (available + 1)) context state =
        .ok { completed := false } (((begun state).movedTo spot).outOfLevels context) := by
  have takes := declared.atOperand.assignment isC (context.tokens.get state.position).location
  rw [← Opening.levels_eq] at takes
  obtain ⟨spot, low, high, gaveUp⟩ := takes.givesUp (available + 1) few
  have initialized := declared.initDeclarator available
    (some (functionBody (ofLevels (available + 1))))
  rw [gaveUp] at initialized
  have whole := declaration_incomplete (specifiersRule_int declared.isInt declared.isName) rfl
    (baseType_int _ _) (by simp [declared.isName]) initialized
  refine ⟨spot, low, ?_, (externalDeclaration_ordinary declared.isInt (by decide)).trans whole⟩
  rw [stop_eq]
  omega

theorem resumption (declared : AtInitialized context state openings) {spot : Nat}
    (low : (begun state).position ≤ spot) (high : spot + 1 < stop state openings) :
    context.tokens.resumption spot 0 spot = stop state openings := by
  rw [stop_eq] at high ⊢
  refine TokenStream.resumption_through declared.ends (by omega) fun place from_ before => ?_
  exact Opening.isPassedOver_operandWords openings _
    (declared.value.mem (Nat.le_trans low from_) before)

end AtInitialized

/-! ## The levels of each declaration -/

/-- What reading the declarations from `state` on comes to when their end is reached in `next` with the
nodes `more`, where so many levels are available. -/
structure ReadsEach (place : SourceLocation) (available : Nat) (operands : List (List Opening))
    (state next : ParseState) (more : Array Node) : Prop where
  position : next.position = state.position + (operands.flatMap Opening.declarationWords).length
  calm : next.panicking = false
  nodes : Node.sameShapes more.toList
    ((operands.filter fun openings => Opening.levels openings ≤ available).map
      fun openings => .initializedObject place (openings.count .minus)) = true
  problems : next.diagnostics.remarks = state.diagnostics.remarks ++
    List.replicate (operands.countP fun openings => available < Opening.levels openings) tooDeepRemark

theorem ReadsEach.nil (place : SourceLocation) (calm : state.panicking = false) :
    ReadsEach place available [] state state #[] :=
  ⟨rfl, calm, rfl, by simp⟩

theorem ReadsEach.cons {place : SourceLocation} {middle : ParseState} {first : Array Node}
    (readsFirst : ReadsEach place available [openings] state middle first)
    (readsRest : ReadsEach place available operands middle next more) :
    ReadsEach place available (openings :: operands) state next (first ++ more) := by
  refine ⟨?_, readsRest.calm, ?_, ?_⟩
  · rw [readsRest.position, readsFirst.position]
    simp
    omega
  · have joined := Node.sameShapes_append readsFirst.nodes readsRest.nodes
    rwa [← List.map_append, ← List.filter_append, List.singleton_append, ← Array.toList_append]
      at joined
  · rw [readsRest.problems, readsFirst.problems, List.append_assoc, List.replicate_append_replicate,
      ← List.countP_append, List.singleton_append]

/-- The items of a whole text, of which `nodes` have been read. -/
def itemsFrom (available : Nat) (nodes : Array Node) : Parse (Array Node) :=
  repeatFrom (recoveringStep (fun _ => false) (externalDeclaration (ofLevels available))) nodes

namespace AtInitialized

variable {place : SourceLocation}

theorem readsEach (declared : AtInitialized context state openings)
    (isC : context.language = cLanguage dialect) (place : SourceLocation) (nodes : Array Node) :
    ∃ more next, itemsFrom (available + 1) nodes context state =
        itemsFrom (available + 1) (nodes ++ more) context next ∧
      ReadsEach place (available + 1) [openings] state next more := by
  have notEnd : (context.tokens.get state.position).kind ≠ .endOfFile := by simp [declared.isInt]
  have forward : state.position < stop state openings := by
    rw [stop, Opening.length_declarationWords]
    omega
  by_cases enough : Opening.levels openings ≤ available + 1
  · obtain ⟨node, same, read⟩ := declared.externalDeclaration_fits isC place enough
    refine ⟨_, _, recoveringStep_item notEnd rfl read forward, ?_, declared.calm, ?_, ?_⟩
    · simp [stop]
    · simp [enough, Node.sameShapes, same]
    · simp [Nat.not_lt.mpr enough, begun]
  · obtain ⟨spot, low, high, read⟩ :=
      declared.externalDeclaration_gaveUp isC (Nat.lt_of_not_le enough)
    have resumes := declared.resumption low high
    have tried : attempt (externalDeclaration (ofLevels (available + 1))) context state =
        .ok (some { completed := false })
          (((begun state).movedTo spot).outOfLevels context) := by
      simp [attempt, read]
    refine ⟨#[], _, recoveringStep_resumed notEnd rfl tried rfl (by rwa [← resumes] at forward), ?_, rfl, ?_, ?_⟩
    · simpa [stop] using resumes
    · simp [enough, Node.sameShapes]
    · simp [Nat.lt_of_not_le enough, begun, ParseState.outOfLevels, Diagnostics.remarks, tooDeepRemark]

end AtInitialized

/-! ## Whole texts -/

/-- None of the declarations takes levels from the next one. -/
theorem readsEach (isC : context.language = cLanguage dialect) (place : SourceLocation)
    (has : context.tokens.HasWordsAt state.position (operands.flatMap Opening.declarationWords))
    (calm : state.panicking = false) (nodes : Array Node) :
    ∃ more next, itemsFrom (available + 1) nodes context state =
        itemsFrom (available + 1) (nodes ++ more) context next ∧
      ReadsEach place (available + 1) operands state next more := by
  induction operands generalizing state nodes with
  | nil => exact ⟨#[], state, by simp, .nil place calm⟩
  | cons openings operands ih =>
    rw [List.flatMap_cons, TokenStream.hasWordsAt_append] at has
    obtain ⟨hasFirst, hasRest⟩ := has
    obtain ⟨first, middle, runFirst, readsFirst⟩ :=
      AtInitialized.readsEach ⟨hasFirst, calm⟩ isC place nodes
    have position : middle.position =
        state.position + (Opening.declarationWords openings).length := by
      simpa using readsFirst.position
    rw [← position] at hasRest
    obtain ⟨more, next, runRest, readsRest⟩ := ih hasRest readsFirst.calm (nodes ++ first)
    refine ⟨first ++ more, next, ?_, readsFirst.cons readsRest⟩
    rw [runFirst, runRest, Array.append_assoc]

theorem wholeText_of_items
    (items : itemsFrom available #[] context state = .ok nodes next) :
    StartRule.wholeText (ofLevels available) context state =
      .ok (.ofChildren .program (context.tokens.get state.position).location nodes.toList) next := by
  rw [itemsFrom] at items
  simp [StartRule.wholeText, recoveringItems_eq, items]

/-- The tree of a text of such declarations. -/
def Node.nestedProgram (place : SourceLocation) (available : Nat) (operands : List (List Opening)) :
    Node :=
  .ofChildren .program place
    ((operands.filter fun openings => Opening.levels openings ≤ available).map
      (fun openings => .initializedObject place (openings.count .minus)) ++
        [.intObject place "after"])

theorem wholeText_programWords {tokens : TokenStream} {diagnostics : Diagnostics}
    (place : SourceLocation)
    (isText : tokens.body.toList.map Token.word = Opening.programWords operands) :
    ∃ tree next,
      StartRule.wholeText (ofLevels (available + 1)) ((cLanguage dialect).context tokens)
        (.first diagnostics) = .ok tree next ∧
      tree.sameShape (.nestedProgram place (available + 1) operands) = true ∧
      next.diagnostics.remarks = diagnostics.remarks ++
        List.replicate (operands.countP fun openings => available + 1 < Opening.levels openings)
          tooDeepRemark := by
  have has : tokens.HasWordsAt 0 (Opening.programWords operands) := isText ▸ tokens.hasWordsAt_body
  have behind := TokenStream.get_behind_words isText
  rw [Opening.programWords, TokenStream.hasWordsAt_append] at has
  obtain ⟨hasOperands, isInt, isName, isSemicolon, _⟩ := has
  obtain ⟨more, next, run, reads⟩ := @readsEach ((cLanguage dialect).context tokens)
    (.first diagnostics) available dialect operands rfl place hasOperands rfl #[]
  have position : next.position = 0 + (operands.flatMap Opening.declarationWords).length :=
    reads.position
  rw [← position] at isInt isName isSemicolon
  have atInt : (tokens.get next.position).kind = .keyword .intWord := congrArg Word.kind isInt
  -- The object behind the nested ones is read as ever: nothing of the depth that was reached is
  -- left.
  have declared := @externalDeclaration_int ((cLanguage dialect).context tokens) next available
    atInt (congrArg Word.kind isName) (congrArg Word.kind isSemicolon)
  have named : (tokens.get (next.position + 1)).lexeme = "after" := congrArg Word.lexeme isName
  let last := next.position + 3
  have atEnd : (tokens.get last).kind = .endOfFile := by
    rw [Opening.programWords, List.length_append, ← Nat.add_assoc, ← position] at behind
    exact behind
  have items := run.trans <|
    (recoveringStep_item (by simp [atInt]) rfl declared (Nat.lt_add_of_pos_right (by decide))).trans
      (recoveringStep_stop (.inl atEnd))
  refine ⟨_, _, wholeText_of_items items, ?_, reads.problems⟩
  have isLast : (Node.mk .variableDeclaration (tokens.get (next.position + 1)).location
      (.declaration { name := some (tokens.get (next.position + 1)).lexeme })
      [.named .builtinType (tokens.get next.position).location "int"]).sameShape
        (.intObject place "after") = true := by
    simp [Node.intObject, Node.named, Node.leaf, Node.sameShape, Node.sameShapes, named]
  have same := @Node.sameShapes_append _ _ [_] [.intObject place "after"] reads.nodes
    (by simpa [Node.sameShapes] using isLast)
  simpa [Node.nestedProgram, Node.ofChildren, Node.sameShape] using same

end

/-! ## Texts -/

/-- The words one after the other, each with a blank behind it. -/
def spacedText (words : List Word) : String := String.join (words.map fun word => word.lexeme ++ " ")

theorem ScansAs.spacedText {dialect : Dialect} {words : List Word}
    (scan : ∀ word ∈ words, ∀ next, ScansAs dialect word.lexeme.toList [word] (' ' :: next)) :
    ScansAs dialect (spacedText words).toList words [] := by
  induction words with
  | nil => exact .nil []
  | cons word rest ih =>
    have scansRest := ScansAs.space (ih fun other isOther => scan other (List.mem_cons_of_mem word isOther))
    have scansWord := scan word List.mem_cons_self ((CFrontEnd.spacedText rest).toList ++ [])
    simpa [CFrontEnd.spacedText, String.join_cons] using scansWord.append scansRest

namespace Opening

/-- The words of every such text. -/
def vocabulary : List Word :=
  [.int, .identifier "x", .identifier "after", .operator .assign "=", .openParen,
    .operator .minus "-", .integer 1 {}, .closeParen, .semicolon]

theorem programWords_subset (operands : List (List Opening)) :
    programWords operands ⊆ vocabulary := by
  have inOperand : [Word.openParen, .operator .minus "-", .integer 1 {}, .closeParen] ⊆ vocabulary := by
    simp [vocabulary]
  intro word isWord
  simp only [programWords, declarationWords, List.mem_append, List.mem_flatMap, List.mem_cons,
    List.not_mem_nil, or_false] at isWord
  rcases isWord with ⟨openings, _, rfl | rfl | rfl | isOperand | rfl⟩ | rfl | rfl | rfl
  case inl.inr.inr.inr.inl => exact inOperand (mem_operandWords isOperand)
  all_goals simp [vocabulary]

/-- None of them goes on behind a blank. -/
theorem scansAs_vocabulary (dialect : Dialect) :
    ∀ word ∈ vocabulary, ∀ next, ScansAs dialect word.lexeme.toList [word] (' ' :: next) := by
  have reserved : (cLanguage dialect).keyword? "int" = some .intWord ∧
      (cLanguage dialect).keyword? "x" = none ∧ (cLanguage dialect).keyword? "after" = none := by
    obtain ⟨standard, gnu⟩ := dialect
    cases standard <;> cases gnu <;> decide +kernel
  obtain ⟨isInt, isX, isAfter⟩ := reserved
  intro word isWord next
  have ends : EndsWord (' ' :: next) := .cons _ (by decide)
  have scansSymbol {kind : TokenKind} {symbol : String} (known : (kind, symbol) ∈ cSymbolKinds) :
      ScansAs dialect symbol.toList [⟨kind, symbol, none⟩] (' ' :: next) :=
    .symbol known (.space (mem_cSymbols known) _)
  simp only [vocabulary, List.mem_cons, List.not_mem_nil, or_false] at isWord
  rcases isWord with rfl | rfl | rfl | rfl | rfl | rfl | rfl | rfl | rfl
  · exact .keyword (by decide) isInt ends
  · exact .identifier (by decide) isX ends
  · exact .identifier (by decide) isAfter ends
  · exact scansSymbol (by decide)
  · exact scansSymbol (by decide)
  · exact scansSymbol (by decide)
  · exact .integer (by decide) (by decide) ends (by simp)
  · exact scansSymbol (by decide)
  · exact scansSymbol (by decide)

end Opening

example : Opening.levels (List.replicate 255 .parenthesis) = maxNesting := by decide +kernel

end CFrontEnd
