import CFrontEnd.Proofs.Grammar.Declarations
import CFrontEnd.Proofs.Grammar.Start
import CFrontEnd.Proofs.Types.Spine

/-!
Types come back from their texts, alone and around a name that is declared, as far as their declarators
do not nest too deeply.
-/

namespace CFrontEnd

open Parse Productions

theorem Node.kind_eq_of_sameShape {node tree : Node} (same : node.sameShape tree = true) :
    node.kind = tree.kind := by
  obtain ⟨kind, _, payload, children⟩ := node
  obtain ⟨otherKind, _, otherPayload, otherChildren⟩ := tree
  simp only [sameShape, Bool.and_eq_true] at same
  exact eq_of_beq same.1.1

/-- What the nearest step makes a function is a function type. -/
theorem Declarator.isFunction_of_kind {declarator : Declarator} {base : Node}
    (notFunction : (declarator.type base).kind ≠ .functionType) : declarator.isFunction = false := by
  cases derivations : declarator.derivations with
  | nil => simp [isFunction, derivations]
  | cons nearest rest =>
    cases nearest with
    | function _ _ _ _ => simp [type, derivations, TypeDerivation.apply] at notFunction
    | _ => simp [isFunction, derivations]

/-- A declaration that begins with a type and declares one thing is what it declares. -/
theorem Productions.groupedDeclaration_ofType {deeper : Productions} {context : ParseContext}
    {state next : ParseState} {word : Keyword} {node : Node}
    (isWord : (context.tokens.get state.position).kind = .keyword word)
    (beginsType : word.beginsType = true)
    (declared : declaration deeper none context state = .ok { nodes := #[node] } next) :
    groupedDeclaration deeper context state = .ok node next := by
  have notWord : ∀ other : Keyword, other.beginsType = false →
      (context.tokens.get state.position).kind ≠ .keyword other := by
    rintro other noType isOther
    obtain rfl : word = other := by simpa using isWord.symm.trans isOther
    rw [beginsType] at noType
    cases noType
  refine groupedDeclaration_single (.trans ?_ declared)
  exact blockDeclaration_ordinary (notWord .extensionWord rfl) (notWord .staticAssertWord rfl)
    (notWord .labelWord rfl)

namespace ReadsTypeAt

variable {form : DeclaratorForm} {context : ParseContext} {state : ParseState} {need stop : Nat}
  {name : Option String} {tree : Node} {place : Nat} {specifiers : DeclarationSpecifiers}
  {base : Node} {around : Node → Node}

theorem typeName
    (reads : ReadsTypeAt .abstract context state need stop name tree place specifiers base around)
    (calm : state.panicking = false) (levels : Nat) :
    Demands (need + 1) levels state.diagnostics (typeName (ofLevels levels) context state)
      (∃ node, node.sameShape tree = true ∧
        typeName (ofLevels levels) context state = .ok node (state.movedTo stop)) := by
  obtain ⟨spot, qualifiers, words, rfl⟩ := reads.plain
  have whole := reads.declared.declarator (by simpa using calm) levels
  rw [← Nat.max_eq_right (Nat.le_add_left 1 need)]
  refine (reads.specified levels false).chain (fun specified => ?_) ?_
  · refine whole.carry ?_ ?_
    · rintro ⟨declarator, _, derived, read⟩
      refine ⟨_, reads.derives declarator derived, ?_⟩
      simp [Productions.typeName, specified, reads.based, read]
    · intro after gaveUp
      refine ⟨after, ?_, rfl⟩
      simp [Productions.typeName, specified, reads.based, gaveUp]
  · intro after gaveUp
    exact ⟨after, by simp [Productions.typeName, gaveUp], rfl⟩

/-- Around a name in front of a semicolon the type is that of an object. -/
theorem declaration {object : String} {levels : Nat}
    (reads : ReadsTypeAt .named context state need stop (some object) tree place specifiers base
      around)
    (calm : state.panicking = false) (notFunction : tree.kind ≠ .functionType)
    (ends : (context.tokens.get stop).kind = .punctuator .semicolon) (enough : need + 1 ≤ levels) :
    ∃ node next, declaration (ofLevels levels) none context state = .ok { nodes := #[node] } next ∧
      next.position = stop + 1 ∧ next.diagnostics = state.diagnostics ∧
      node.kind = .variableDeclaration ∧ node.name? = some object ∧
      ∃ type, node.declaredType? = some type ∧ type.sameShape tree = true := by
  obtain ⟨spot, qualifiers, words, rfl⟩ := reads.plain
  have specified := (reads.specified levels true).enough (by omega)
  obtain ⟨declarator, isName, derived, read⟩ :=
    (reads.declared.declarator (by simpa using calm) levels).enough enough
  have same := reads.derives declarator derived
  have noFunction : declarator.isFunction = false := by
    rw [← Node.kind_eq_of_sameShape same] at notFunction
    exact Declarator.isFunction_of_kind notFunction
  have declares : (context.tokens.get place).kind ≠ .punctuator .semicolon := by
    intro isEnd
    have goesOn := reads.declares (by simp)
    simp [isEnd, TokenKind.endsDeclarator] at goesOn
  refine ⟨_, _, declaration_variable specified rfl (reads.based _) declares read ends rfl noFunction,
    rfl, rfl, rfl, ?_, declarator.type base, rfl, same⟩
  simp [variableNode, Node.name?, Payload.name?, isName]

end ReadsTypeAt

/-! ## Whole texts -/

variable {tree : Node} {tokens : TokenStream} {diagnostics : Diagnostics}

theorem ParseState.isPlain_first (diagnostics : Diagnostics) : (first diagnostics).IsPlain :=
  ⟨rfl, fun _ => rfl⟩

/-- The words of a type that fill a text are read as the name of the type. -/
theorem ReadsType.typeName {text : String} {words : List Word} {need : Nat}
    (reads : ReadsType .abstract text words need none tree)
    (isWords : tokens.body.toList.map Token.word = words) :
    Demands (need + 1) maxNesting diagnostics
      (Productions.typeName (ofLevels maxNesting) ((cLanguage gnuC23).context tokens)
        (.first diagnostics))
      (∃ node, node.sameShape tree = true ∧
        (cLanguage gnuC23).parseRule "type_name" tokens diagnostics = (some node, diagnostics)) := by
  have has : tokens.HasWordsAt 0 words := isWords ▸ tokens.hasWordsAt_body
  have ends : (tokens.get (0 + words.length)).kind = .endOfFile := by
    rw [← isWords, List.length_map, Array.length_toList, Nat.zero_add]
    exact tokens.get_size
  have plain := ParseState.isPlain_first diagnostics
  have isEnd : (((cLanguage gnuC23).context tokens).tokens.get
      ((ParseState.first diagnostics).position + words.length)).kind.endsDeclarator = true := by
    change (tokens.get (0 + words.length)).kind.endsDeclarator = true
    rw [ends]
    rfl
  obtain ⟨place, specifiers, base, around, readsAt⟩ := reads.reads rfl plain has isEnd
  refine (readsAt.typeName rfl maxNesting).imp ?_
  rintro ⟨node, same, read⟩
  exact ⟨node, same, Language.parseRule_ok .typeName read ends⟩

/-- The words of a type around a name, with a semicolon behind them, are read as a declaration. -/
theorem ReadsType.declaration {text object : String} {words : List Word} {need : Nat}
    (reads : ReadsType .named text words need (some object) tree)
    (notFunction : tree.kind ≠ .functionType) (enough : need + 1 ≤ maxNesting)
    (isWords : tokens.body.toList.map Token.word = words ++ [.semicolon]) :
    ∃ node type,
      (cLanguage gnuC23).parseRule "declaration" tokens diagnostics = (some node, diagnostics) ∧
      node.kind = .variableDeclaration ∧ node.name? = some object ∧
      node.declaredType? = some type ∧ type.sameShape tree = true := by
  have has : tokens.HasWordsAt 0 (words ++ [.semicolon]) := isWords ▸ tokens.hasWordsAt_body
  rw [TokenStream.hasWordsAt_append, TokenStream.hasWordsAt_cons] at has
  obtain ⟨hasType, isSemicolon, _⟩ := has
  have semicolon : (tokens.get (0 + words.length)).kind = .punctuator .semicolon :=
    Token.kind_of_word isSemicolon
  have ends : (tokens.get (0 + words.length + 1)).kind = .endOfFile := by
    have size : tokens.body.size = 0 + words.length + 1 := by
      rw [← Array.length_toList, ← List.length_map Token.word, isWords]
      simp
    rw [← size]
    exact tokens.get_size
  have plain := ParseState.isPlain_first diagnostics
  have isEnd : (((cLanguage gnuC23).context tokens).tokens.get
      ((ParseState.first diagnostics).position + words.length)).kind.endsDeclarator = true := by
    change (tokens.get (0 + words.length)).kind.endsDeclarator = true
    rw [semicolon]
    rfl
  obtain ⟨place, specifiers, base, around, readsAt⟩ := reads.reads rfl plain hasType isEnd
  obtain ⟨node, next, read, position, same, isVariable, isName, type, isType, shape⟩ :=
    readsAt.declaration rfl notFunction semicolon enough
  -- The declaration is recognized by its first word.
  obtain ⟨keyword, rest, rfl, beginsType, _⟩ := reads.begins
  have isFirst : (((cLanguage gnuC23).context tokens).tokens.get
      (ParseState.first diagnostics).position).kind = .keyword keyword :=
    Token.kind_of_word hasType.1
  have grouped : groupedDeclaration (ofLevels maxNesting) ((cLanguage gnuC23).context tokens)
      (.first diagnostics) = .ok node next :=
    groupedDeclaration_ofType isFirst beginsType read
  have parsed := Language.parseRule_ok .declaration grouped (by rw [position]; exact ends)
  rw [same] at parsed
  exact ⟨node, type, parsed, isVariable, isName, isType, shape⟩

/-! ## Trees of types -/

theorem IsTypeTree.readsType (isTree : IsTypeTree tree) :
    ∃ words, ReadsType .abstract tree.typeText words tree.nesting none tree :=
  Node.IsWrittenAround.readsType isTree.isWrittenAround (.unnamed (by decide)) (by simp)

theorem IsTypeTree.readsAround {object : String} (isTree : IsTypeTree tree)
    (isObject : IsObjectName object) :
    ∃ words, ReadsType .named (tree.declaratorText object) words tree.nesting (some object) tree := by
  refine Node.IsWrittenAround.readsType isTree.isWrittenAround (.ofName (by decide) isObject)
    fun _ isEmpty => ?_
  obtain rfl := isEmpty
  exact absurd isObject.1.1 (by decide)

/-- Every type whose declarators do not nest too deeply comes back from its text, and so does the type
of an object from its declaration. -/
theorem parseRule_typeText (tree : Node) (isTree : IsTypeTree tree)
    (fits : tree.nesting < maxNesting) (file : String) (diagnostics : Diagnostics) :
    (∃ tokens node,
      tokenize (cLanguage gnuC23) ⟨file, tree.typeText⟩ diagnostics = (tokens, diagnostics) ∧
      (cLanguage gnuC23).parseRule "type_name" tokens diagnostics = (some node, diagnostics) ∧
      node.sameShape tree = true) ∧
    (tree.kind ≠ .functionType → ∀ object, IsObjectName object → ∃ tokens node type,
      tokenize (cLanguage gnuC23) ⟨file, tree.declaratorText object ++ ";"⟩ diagnostics =
        (tokens, diagnostics) ∧
      (cLanguage gnuC23).parseRule "declaration" tokens diagnostics = (some node, diagnostics) ∧
      node.kind = .variableDeclaration ∧ node.name? = some object ∧
      node.declaredType? = some type ∧ type.sameShape tree = true) := by
  constructor
  · obtain ⟨words, reads⟩ := isTree.readsType
    obtain ⟨tokens, tokenized, isWords⟩ := (reads.scans [] .nil).tokenize file diagnostics
    obtain ⟨node, same, parsed⟩ := (reads.typeName isWords).enough fits
    exact ⟨tokens, node, tokenized, parsed, same⟩
  · intro notFunction object isObject
    obtain ⟨words, reads⟩ := isTree.readsAround isObject
    have scans : ScansAs gnuC23 (tree.declaratorText object ++ ";").toList
        (words ++ [.semicolon]) [] := by
      have known : (TokenKind.punctuator .semicolon, ";") ∈ cSymbolKinds := by decide
      have behind : ScansAs gnuC23 ";".toList [Word.semicolon] [] := .symbol known (.nil ";")
      rw [String.toList_append]
      exact (reads.scans _ (.cons [] (by decide))).append behind
    obtain ⟨tokens, tokenized, isWords⟩ := scans.tokenize file diagnostics
    obtain ⟨node, type, parsed, isVariable, isName, isType, same⟩ :=
      reads.declaration notFunction fits isWords
    exact ⟨tokens, node, type, tokenized, parsed, isVariable, isName, isType, same⟩

/-- The type of `f` in `int (*(*f)(const char *, ...))[3]`. -/
def sampleType : Node :=
  let spot : SourceLocation := ⟨"<input>", 1, 1, 0⟩
  let builtin (name : String) : Node := ⟨.builtinType, spot, .name name, []⟩
  let pointer (target : Node) : Node := ⟨.pointerType, spot, .none, [target]⟩
  let constChar : Node :=
    ⟨.qualifiedType, spot, .qualifiers { isConst := true }, [builtin "char"]⟩
  let three : Node := ⟨.integerLiteral, spot, .literal (.integer 3 ⟨false, 0⟩), []⟩
  let row : Node := ⟨.arrayType, spot, .array {} false false, [builtin "int", three]⟩
  let parameters : List Parameter := [⟨none, spot, pointer constChar⟩]
  pointer ⟨.functionType, spot, .functionType true true,
    pointer row :: parameters.map Parameter.node⟩

theorem isTypeTree_sampleType : IsTypeTree sampleType := by
  have isInt : IsBuiltinName "int" := ⟨[.intWord], by decide, by decide⟩
  have isChar : IsBuiltinName "char" := ⟨[.charWord], by decide, by decide⟩
  have isThree : IsIntegerLiteral 3 ⟨false, 0⟩ := ⟨by decide, by decide⟩
  refine .pointer (.function ?_ (.pointer (.sizedArray (.base (.builtin isInt)) (.integer isThree)))
    ?_)
  · exact ⟨by simp, by simp, by simp⟩
  · intro parameter isParameter
    obtain rfl := List.mem_singleton.mp isParameter
    exact .pointer (.base (.qualified rfl isChar))

theorem parseRule_typeText_sample :
    IsTypeTree sampleType ∧ sampleType.nesting < maxNesting ∧ sampleType.kind ≠ .functionType ∧
    IsObjectName "f" ∧
    (∃ tokens node,
      tokenize (cLanguage gnuC23) ⟨"<input>", sampleType.typeText⟩ .empty = (tokens, .empty) ∧
      (cLanguage gnuC23).parseRule "type_name" tokens .empty = (some node, .empty) ∧
      node.sameShape sampleType = true) ∧
    ∃ tokens node type,
      tokenize (cLanguage gnuC23) ⟨"<input>", sampleType.declaratorText "f" ++ ";"⟩ .empty =
        (tokens, .empty) ∧
      (cLanguage gnuC23).parseRule "declaration" tokens .empty = (some node, .empty) ∧
      node.kind = .variableDeclaration ∧ node.name? = some "f" ∧
      node.declaredType? = some type ∧ type.sameShape sampleType = true := by
  have fits : sampleType.nesting < maxNesting := by decide
  have notFunction : sampleType.kind ≠ .functionType := by decide
  have isObject : IsObjectName "f" := by decide
  obtain ⟨alone, around⟩ :=
    parseRule_typeText sampleType isTypeTree_sampleType fits "<input>" .empty
  exact ⟨isTypeTree_sampleType, fits, notFunction, isObject, alone,
    around notFunction "f" isObject⟩

/-! ## Types that nest too deeply -/

/-- The other types are scanned as well, and their only problem is that they nest too deeply. -/
theorem parseRule_tooDeep (isTree : IsTypeTree tree) (deep : maxNesting ≤ tree.nesting) (file : String)
    (diagnostics : Diagnostics) :
    ∃ tokens place,
      tokenize (cLanguage gnuC23) ⟨file, tree.typeText⟩ diagnostics = (tokens, diagnostics) ∧
      (cLanguage gnuC23).parseRule "type_name" tokens diagnostics =
        (none, diagnostics.report .grammatical place GrammarProblem.nestedTooDeeply.message) := by
  obtain ⟨words, reads⟩ := isTree.readsType
  obtain ⟨tokens, tokenized, isWords⟩ := (reads.scans [] .nil).tokenize file diagnostics
  obtain ⟨place, next, gaveUp, reported⟩ :=
    (reads.typeName isWords).tooFew (Nat.lt_succ_of_le deep)
  refine ⟨tokens, place, tokenized, ?_⟩
  rw [← reported]
  exact Language.parseRule_error .typeName gaveUp

def pointersToArrays : Nat → Node
  | 0 => ⟨.builtinType, ⟨"<input>", 1, 1, 0⟩, .name "int", []⟩
  | count + 1 =>
    ⟨.pointerType, ⟨"<input>", 1, 1, 0⟩, .none,
      [⟨.arrayType, ⟨"<input>", 1, 1, 0⟩, .array {} false false, [pointersToArrays count]⟩]⟩

/-- Functions one in the parameters of the other, each with so many pointers to arrays. -/
def nestedFunctions (pointers : Nat) : Nat → Node
  | 0 => pointersToArrays 0
  | count + 1 =>
    ⟨.functionType, ⟨"<input>", 1, 1, 0⟩, .functionType false true,
      pointersToArrays pointers ::
        [⟨none, ⟨"<input>", 1, 1, 0⟩, nestedFunctions pointers count⟩].map Parameter.node⟩

theorem isTypeTree_pointersToArrays (count : Nat) : IsTypeTree (pointersToArrays count) := by
  induction count with
  | zero => exact .base (.builtin ⟨[.intWord], by decide, by decide⟩)
  | succ count ih => exact .pointer (.openArray ih)

theorem depthAround_pointersToArrays (count depth : Nat) :
    (pointersToArrays count).depthAround false depth = depth + count := by
  induction count generalizing depth with
  | zero => simp [pointersToArrays, Node.depthAround]
  | succ count ih =>
    simp [pointersToArrays, Node.depthAround, ih, closedDepth]
    omega

theorem height_pointersToArrays (count : Nat) : (pointersToArrays count).height = 2 * count := by
  induction count with
  | zero => rfl
  | succ count ih =>
    simp [pointersToArrays, Node.height, Node.heights, ih]
    omega

section

variable (pointers count : Nat)

theorem nesting_nestedFunctions :
    (nestedFunctions pointers count).nesting = (pointers + 1) * count := by
  induction count with
  | zero => simp [nestedFunctions, pointersToArrays, Node.nesting, Node.depthAround]
  | succ count ih =>
    rw [Node.nesting] at ih ⊢
    simp [nestedFunctions, Node.depthAround, closedDepth, depthAround_pointersToArrays, ih,
      Node.parametersDepth, Nat.mul_succ]
    omega

theorem height_nestedFunctions :
    (nestedFunctions pointers count).height ≤ 2 * pointers + 2 * count := by
  induction count with
  | zero => simp [nestedFunctions, height_pointersToArrays]
  | succ count ih =>
    simp [nestedFunctions, Node.height, Node.heights, Parameter.node, height_pointersToArrays]
    omega

theorem isTypeTree_nestedFunctions : IsTypeTree (nestedFunctions pointers count) := by
  induction count with
  | zero => exact isTypeTree_pointersToArrays 0
  | succ count ih =>
    refine .function ?_ (isTypeTree_pointersToArrays pointers) ?_
    · refine ⟨by simp, by simp, ?_⟩
      rintro _ _ isSingle ⟨_, spot, isVoid⟩
      obtain rfl := (List.singleton_inj.mp isSingle).symm
      cases count <;> simp [nestedFunctions, pointersToArrays] at isVoid
    · intro parameter isParameter
      obtain rfl := List.mem_singleton.mp isParameter
      exact ih

end

/-- Parameter lists add up, so that a type that is not high nests too deeply. -/
theorem parseRule_typeText_nested :
    IsTypeTree (nestedFunctions 32 32) ∧ (nestedFunctions 32 32).height ≤ 500 ∧ ∃ tokens place,
      tokenize (cLanguage gnuC23) ⟨"<input>", (nestedFunctions 32 32).typeText⟩ .empty =
        (tokens, .empty) ∧
      (cLanguage gnuC23).parseRule "type_name" tokens .empty =
        (none, Diagnostics.empty.report .grammatical place
          GrammarProblem.nestedTooDeeply.message) := by
  have low := height_nestedFunctions 32 32
  have deep := nesting_nestedFunctions 32 32
  have isTree := isTypeTree_nestedFunctions 32 32
  exact ⟨isTree, by omega, parseRule_tooDeep isTree (by rw [deep]; decide) "<input>" .empty⟩

end CFrontEnd
