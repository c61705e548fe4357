import CFrontEnd.Proofs.Blocks.Items
import CFrontEnd.Proofs.Grammar.Start
import CFrontEnd.Proofs.Language.Tables
import CFrontEnd.Proofs.Scan.Chains
import CFrontEnd.Proofs.Specifiers.Words
import CFrontEnd.Proofs.Spelling.OperatorTrees
import CFrontEnd.Proofs.Types.TypeWords

/-!
Declarations of one name whose specifiers are words. The order of the words makes no difference to how
many problems there are, nor to what is declared if there is none.
-/

namespace CFrontEnd

open DeclarationSpecifiers

/-! ## What the words declare -/

/-- How many problems there are with the type that the words stand for. Without a word for it there is
one after the first standard. -/
def typeProblems (dialect : Dialect) (words : List Keyword) : Nat :=
  match writtenType (words.filter Keyword.spellsType) with
  | .missing => if Standard.c89 < dialect.standard then 1 else 0
  | .named _ => 0
  | .invalid => 1

/-- How many problems there are with a declaration that the words begin. -/
def specifierProblems (dialect : Dialect) (words : List Keyword) : Nat :=
  if words.isEmpty then 1 else furtherStorage words + typeProblems dialect words

/-- The type that the words stand for, or else `int`. -/
def specifiedType (place : SourceLocation) (words : List Keyword) : Node :=
  let name :=
    match writtenType (words.filter Keyword.spellsType) with
    | .named name => name
    | _ => "int"
  (ofWords place words).qualifiers.apply place (.named .builtinType place name)

/-- What the words declare a name to be. -/
def declaredNode (place : SourceLocation) (words : List Keyword) (name : Token) : Node :=
  let specifiers := ofWords place words
  let declarator : Declarator := { name := some name.lexeme, location := name.location }
  if specifiers.isTypedef then Productions.typedefNode (specifiedType place words) declarator
  else Productions.variableNode specifiers (specifiedType place words) declarator

section

variable {place : SourceLocation} {words : List Keyword} {name : Token}

theorem declaredNode_typedef (isTypedef : (ofWords place words).isTypedef = true) :
    declaredNode place words name =
      Productions.typedefNode (specifiedType place words)
        { name := some name.lexeme, location := name.location } :=
  if_pos isTypedef

theorem declaredNode_object (noTypedef : (ofWords place words).isTypedef = false) :
    declaredNode place words name =
      Productions.variableNode (ofWords place words) (specifiedType place words)
        { name := some name.lexeme, location := name.location } :=
  if_neg (Bool.eq_false_iff.mp noTypedef)

end

namespace Productions

open Parse

variable {deeper : Productions} {context : ParseContext} {state : ParseState}
  {words : List Keyword}

variable (context words) in
theorem baseType_ofWords (place : SourceLocation) (calm : state.panicking = false) :
    ∃ diagnostics,
      baseType (ofWords place words) context state =
        .ok (specifiedType place words) (state.noted diagnostics) ∧
      diagnostics.count = state.diagnostics.count + typeProblems context.dialect words := by
  have isNamed : (ofWords place words).named = none := rfl
  have isWords : (ofWords place words).words.toList = words.filter Keyword.spellsType := rfl
  have isPlace : (ofWords place words).location = place := rfl
  cases written : writtenType (words.filter Keyword.spellsType) with
  | missing =>
    by_cases later : Standard.c89 < context.dialect.standard
    · refine ⟨state.diagnostics.report .grammatical place
        GrammarProblem.missingTypeSpecifier.message, ?_, ?_⟩
      · simp [baseType, unqualifiedBaseType, isNamed, isWords, isPlace, written, specifiedType, later,
          afterC89, complain_calm calm]
      · simp [typeProblems, written, later]
    · refine ⟨state.diagnostics, ?_, ?_⟩
      · simp [baseType, unqualifiedBaseType, isNamed, isWords, isPlace, written, specifiedType, later,
          afterC89]
      · simp [typeProblems, written, later]
  | named name =>
    refine ⟨state.diagnostics, ?_, ?_⟩
    · simp [baseType, unqualifiedBaseType, isNamed, isWords, isPlace, written, specifiedType]
    · simp [typeProblems, written]
  | invalid =>
    refine ⟨state.diagnostics.report .grammatical place
      (GrammarProblem.invalidTypeWords
        ((words.filter Keyword.spellsType).map Keyword.spelling)).message, ?_, ?_⟩
    · simp [baseType, unqualifiedBaseType, isNamed, isWords, isPlace, written, specifiedType,
        complain_calm calm]
    · simp [typeProblems, written]

/-- The name behind the words ends the specifiers, if it names no type. -/
theorem addSpecifier_objectName {specifiers : DeclarationSpecifiers} {admitsStorage : Bool}
    (isName : (context.tokens.get state.position).kind = .identifier)
    (noType : context.language.isTypeName state.scopes.isTypedefName
      (context.tokens.get state.position).lexeme = false) :
    repeatFrom (addSpecifier deeper admitsStorage) specifiers context state =
      .ok specifiers state := by
  apply repeatFrom_done
  cases isFirst : specifiers.named.isNone && specifiers.words.isEmpty <;>
    simp [addSpecifier, isName, isFirst, noType]

/-- The words of a declaration, the name behind them and the semicolon that ends it. -/
structure AtDeclaration (context : ParseContext) (state : ParseState) (words : List Keyword) :
    Prop where
  specify : ∀ word ∈ words, word.isSpecifier = true
  shows : context.tokens.Shows state.position
    (words.map .keyword ++ [.identifier, .punctuator .semicolon])
  noType : context.language.isTypeName state.scopes.isTypedefName
    (context.tokens.get (state.position + words.length)).lexeme = false
  calm : state.panicking = false

namespace AtDeclaration

theorem isName (atDeclaration : AtDeclaration context state words) :
    (context.tokens.get (state.position + words.length)).kind = .identifier := by
  have behind := (TokenStream.shows_append.mp atDeclaration.shows).2
  rw [List.length_map] at behind
  exact behind.1

theorem ends (atDeclaration : AtDeclaration context state words) :
    (context.tokens.get (state.position + words.length + 1)).kind = .punctuator .semicolon := by
  have behind := (TokenStream.shows_append.mp atDeclaration.shows).2
  rw [List.length_map] at behind
  exact behind.2.1

theorem specifiersRule (atDeclaration : AtDeclaration context state words)
    (deeper : Productions) :
    ∃ diagnostics,
      Productions.specifiersRule deeper true context state =
        .ok (ofWords (context.tokens.get state.position).location words)
          ((state.noted diagnostics).movedTo (state.position + words.length)) ∧
      diagnostics.count = state.diagnostics.count + furtherStorage words := by
  have shows : context.tokens.Shows state.position (words.map .keyword ++ [.identifier]) := by
    have all := atDeclaration.shows
    rw [List.append_cons] at all
    exact (TokenStream.shows_append.mp all).1
  obtain ⟨diagnostics, run, count⟩ := addSpecifier_words deeper
    (context.tokens.get state.position).location [] atDeclaration.specify shows (by simp)
    atDeclaration.calm
  refine ⟨diagnostics, ?_, by simpa [furtherStorage] using count⟩
  have noType : context.language.isTypeName
      ((state.noted diagnostics).movedTo (state.position + words.length)).scopes.isTypedefName
      (context.tokens.get (state.position + words.length)).lexeme = false := atDeclaration.noType
  exact run.trans (addSpecifier_objectName atDeclaration.isName noType)

theorem blockDeclaration (atDeclaration : AtDeclaration context state words) :
    Productions.blockDeclaration deeper context state = declaration deeper none context state := by
  have notWord : ∀ word : Keyword, word.isSpecifier = false →
      (context.tokens.get state.position).kind ≠ .keyword word := by
    intro word noSpecifier
    cases words with
    | nil => simp [show (context.tokens.get state.position).kind = .identifier from
        atDeclaration.isName]
    | cons first rest =>
      rw [atDeclaration.shows.1]
      rintro ⟨⟩
      rw [atDeclaration.specify word List.mem_cons_self] at noSpecifier
      cases noSpecifier
  exact blockDeclaration_ordinary (notWord .extensionWord rfl) (notWord .staticAssertWord rfl)
    (notWord .labelWord rfl)

/-- All of the words together say what the name is declared to be. -/
theorem groupedDeclaration (atDeclaration : AtDeclaration context state words)
    (notEmpty : words ≠ []) (levels : Nat) :
    ∃ next,
      Productions.groupedDeclaration (ofLevels (levels + 1)) context state =
        .ok (declaredNode (context.tokens.get state.position).location words
          (context.tokens.get (state.position + words.length))) next ∧
      next.position = state.position + words.length + 2 ∧
      next.diagnostics.count =
        state.diagnostics.count + specifierProblems context.dialect words := by
  obtain ⟨specified, specifiedRun, specifiedCount⟩ :=
    atDeclaration.specifiersRule (ofLevels levels)
  have calm : ((state.noted specified).movedTo (state.position + words.length)).panicking = false :=
    atDeclaration.calm
  obtain ⟨based, basedRun, basedCount⟩ :=
    baseType_ofWords context words (context.tokens.get state.position).location calm
  have isName := atDeclaration.isName
  have ends := atDeclaration.ends
  have read := @declaratorRule_name (ofLevels levels) context
    ((state.noted based).movedTo (state.position + words.length)) isName ends
  have present : (ofWords (context.tokens.get state.position).location words).isPresent = true := by
    simpa [ofWords] using notEmpty
  have declares : (context.tokens.get (state.position + words.length)).kind ≠
      .punctuator .semicolon := by simp [isName]
  -- Problems of the words come from the specifiers and from the type that they name together.
  have count : based.count = state.diagnostics.count + specifierProblems context.dialect words := by
    rw [specifierProblems, if_neg (by simpa using notEmpty), ← Nat.add_assoc, ← specifiedCount]
    exact basedCount
  cases isTypedef : (ofWords (context.tokens.get state.position).location words).isTypedef with
  | true =>
    have declared := @declaration_single (ofLevels (levels + 1)) none _ _ _ _ _ _ _ _ specifiedRun
      present basedRun declares (initDeclarator_typedef read ends isTypedef) body?_typedefNode ends
    rw [declaredNode_typedef isTypedef]
    exact ⟨_, groupedDeclaration_single (atDeclaration.blockDeclaration.trans declared), rfl, count⟩
  | false =>
    have declared := @declaration_single (ofLevels (levels + 1)) none _ _ _ _ _ _ _ _ specifiedRun
      present basedRun declares (initDeclarator_variable read ends isTypedef rfl) body?_variableNode
      ends
    rw [declaredNode_object isTypedef]
    exact ⟨_, groupedDeclaration_single (atDeclaration.blockDeclaration.trans declared), rfl, count⟩

/-- A name alone declares nothing. -/
theorem groupedDeclaration_nil (atDeclaration : AtDeclaration context state []) (levels : Nat) :
    ∃ reason next, Productions.groupedDeclaration (ofLevels (levels + 1)) context state =
        .error reason next ∧
      next.diagnostics.count = state.diagnostics.count + 1 := by
  obtain ⟨specified, specifiedRun, specifiedCount⟩ :=
    atDeclaration.specifiersRule (ofLevels levels)
  have isName : (context.tokens.get state.position).kind = .identifier := atDeclaration.isName
  have ends : (context.tokens.get (state.position + 1)).kind = .punctuator .semicolon :=
    atDeclaration.ends
  have specifiedRun : (ofLevels (levels + 1)).specifiers true context state =
      .ok (ofWords (context.tokens.get state.position).location [])
        ((state.noted specified).movedTo state.position) := specifiedRun
  have calm : ((state.noted specified).movedTo state.position).panicking = false :=
    atDeclaration.calm
  have run : Productions.groupedDeclaration (ofLevels (levels + 1)) context state =
      giveUp (context.tokens.get state.position).location
        (.expected "declaration or statement" (context.tokens.get state.position)) context
        ((state.noted specified).movedTo state.position) := by
    simp [Productions.groupedDeclaration, completed, atDeclaration.blockDeclaration, declaration,
      specifiedRun, ofWords, withoutSpecifiers, isName, ends, giveUp_apply calm]
  rw [giveUp_apply calm] at run
  exact ⟨_, _, run, by simp [specifiedCount, furtherStorage]⟩

end AtDeclaration

end Productions

/-! ## Permutations -/

section Permutations

variable {dialect : Dialect} {words others : List Keyword}

theorem furtherStorage_perm (same : words.Perm others) :
    furtherStorage words = furtherStorage others := by
  rw [furtherStorage, furtherStorage, same.countP_eq]

theorem typeProblems_perm (same : words.Perm others) :
    typeProblems dialect words = typeProblems dialect others := by
  rw [typeProblems, typeProblems, writtenType_perm (same.filter Keyword.spellsType)]

theorem specifierProblems_perm (same : words.Perm others) :
    specifierProblems dialect words = specifierProblems dialect others := by
  have empty : words.isEmpty = others.isEmpty := by
    rw [Bool.eq_iff_iff, List.isEmpty_iff_length_eq_zero, List.isEmpty_iff_length_eq_zero,
      same.length_eq]
  rw [specifierProblems, specifierProblems, empty, furtherStorage_perm same, typeProblems_perm same]

/-- What at most one item has, the same item has in every order. -/
theorem find?_eq_of_perm {α : Type} {items reordered : List α} {has : α → Bool}
    (same : items.Perm reordered) (atMostOne : items.countP has ≤ 1) :
    items.find? has = reordered.find? has := by
  have filtered := same.filter has
  rw [List.countP_eq_length_filter] at atMostOne
  rw [← List.head?_filter, ← List.head?_filter]
  rcases alone : items.filter has with _ | ⟨item, _ | ⟨second, more⟩⟩
  · rw [alone] at filtered
    rw [← filtered.nil_eq]
  · rw [alone] at filtered
    rw [List.singleton_perm.mp filtered]
  · simp [alone] at atMostOne

theorem sameShape_specifiedType (same : words.Perm others) (place otherPlace : SourceLocation) :
    (specifiedType place words).sameShape (specifiedType otherPlace others) = true := by
  have qualifiers : (ofWords place words).qualifiers = (ofWords otherPlace others).qualifiers := by
    simp only [ofWords, same.contains_eq]
  simp only [specifiedType, qualifiers, writtenType_perm (same.filter Keyword.spellsType)]
  generalize (ofWords otherPlace others).qualifiers = qualifiers
  unfold Qualifiers.apply
  cases qualifiers.isEmpty <;> simp [Node.named, Node.leaf, Node.sameShape, Node.sameShapes]

/-- Without a second storage class the order does not change what is declared. -/
theorem sameShape_declaredNode (same : words.Perm others) (noFurther : furtherStorage words = 0)
    (place otherPlace : SourceLocation) {name otherName : Token}
    (sameName : name.lexeme = otherName.lexeme) :
    (declaredNode place words name).sameShape (declaredNode otherPlace others otherName) = true := by
  have first : words.find? Keyword.isStorageWord = others.find? Keyword.isStorageWord :=
    find?_eq_of_perm same (by rw [furtherStorage] at noFurther; omega)
  have typeShape := sameShape_specifiedType same place otherPlace
  cases isTypedef : (ofWords place words).isTypedef with
  | true =>
    have isTypedefToo : (ofWords otherPlace others).isTypedef = true := by
      rw [← isTypedef]
      simp only [ofWords, first]
    rw [declaredNode_typedef isTypedef, declaredNode_typedef isTypedefToo]
    simp [Productions.typedefNode, Node.sameShape, Node.sameShapes, Declarator.type, typeShape, sameName]
  | false =>
    have noTypedefToo : (ofWords otherPlace others).isTypedef = false := by
      rw [← isTypedef]
      simp only [ofWords, first]
    rw [declaredNode_object isTypedef, declaredNode_object noTypedefToo]
    have sameStorage : (ofWords place words).storage = (ofWords otherPlace others).storage := by
      simp only [ofWords, first]
    have sameThread : (ofWords place words).isThreadLocal = (ofWords otherPlace others).isThreadLocal :=
      same.contains_eq
    have noAlignments : ∀ place words, (ofWords place words).alignments = #[] := fun _ _ => rfl
    simp [Productions.variableNode, Node.sameShape, Node.sameShapes, Declarator.type, typeShape,
      sameName, sameStorage, sameThread, noAlignments]

end Permutations

/-! ## Texts -/

/-- A specifier of the dialect in one of its spellings. -/
def IsSpecifierIn (dialect : Dialect) (word : String × Keyword) : Prop :=
  word ∈ reservedIn dialect ∧ word.2.isSpecifier = true

instance (dialect : Dialect) (word : String × Keyword) : Decidable (IsSpecifierIn dialect word) :=
  inferInstanceAs (Decidable (_ ∧ _))

/-- A declaration of the name with the words in front of it. -/
def declarationText (words : List (String × Keyword)) (name : String) : String :=
  String.join (words.map fun word => word.1 ++ " ") ++ name ++ ";"

/-- What the text of a declaration is parsed as, and the problems with it. -/
def parseDeclaration (dialect : Dialect) (buffer : SourceBuffer) : Option Node × Diagnostics :=
  let (tokens, diagnostics) := tokenize (cLanguage dialect) buffer .empty
  (cLanguage dialect).parseRule "declaration" tokens diagnostics

variable {dialect : Dialect} {words : List (String × Keyword)} {name : String}

theorem TokenStream.HasWordsAt.shows {stream : TokenStream} {position : Nat} {expected : List Word}
    (has : stream.HasWordsAt position expected) :
    stream.Shows position (expected.map Word.kind) := by
  induction expected generalizing position with
  | nil => trivial
  | cons word rest ih => exact ⟨congrArg Word.kind has.1, ih has.2⟩

theorem isIdentifierText_reservedWords :
    ∀ entry ∈ reservedWords, isIdentifierText entry.1 = true := by
  decide +kernel

theorem ScansAs.declarationText (specify : ∀ word ∈ words, IsSpecifierIn dialect word)
    (isName : IsName dialect name) :
    ScansAs dialect (declarationText words name).toList
      (words.map (fun word => Word.keyword word.2 word.1) ++ [.identifier name, .semicolon]) [] := by
  induction words with
  | nil =>
    have known : (TokenKind.punctuator .semicolon, ";") ∈ cSymbolKinds := by decide
    have semicolon : ScansAs dialect ";".toList [.semicolon] [] :=
      .symbol known (.of_noTails (by decide) (by decide) _)
    have ends : EndsWord (";".toList ++ []) := .cons [] (by decide)
    simpa [CFrontEnd.declarationText] using
      (ScansAs.identifier isName.1 isName.2 ends).append semicolon
  | cons word rest ih =>
    obtain ⟨reserved, _⟩ := specify word List.mem_cons_self
    obtain ⟨availability, inTable, _⟩ := mem_reservedIn.mp reserved
    have scansRest := ScansAs.space (ih fun other isOther =>
      specify other (List.mem_cons_of_mem word isOther))
    have ends : EndsWord (' ' :: (CFrontEnd.declarationText rest name).toList ++ []) :=
      .cons _ (by decide)
    have scansWord := ScansAs.keyword (isIdentifierText_reservedWords _ inTable)
      (keyword?_cLanguage.mpr reserved) ends
    simpa [CFrontEnd.declarationText, String.join_cons] using scansWord.append scansRest

/-- The tokens of a declaration: its specifiers, its name behind these, and the end behind two more. -/
theorem atDeclaration_of_words {tokens : TokenStream}
    (specify : ∀ word ∈ words, IsSpecifierIn dialect word) (notBuiltin : name ≠ "__builtin_va_list")
    (isWords : tokens.body.toList.map Token.word =
      words.map (fun word => Word.keyword word.2 word.1) ++ [.identifier name, .semicolon]) :
    Productions.AtDeclaration ((cLanguage dialect).context tokens) (.first .empty)
        (words.map Prod.snd) ∧
      (tokens.get words.length).lexeme = name ∧
      (tokens.get (words.length + 2)).kind = .endOfFile := by
  have has : tokens.HasWordsAt 0 _ := isWords ▸ tokens.hasWordsAt_body
  have ends := TokenStream.get_behind_words isWords
  have atName := ((TokenStream.hasWordsAt_append _ _ _).mp has).2.1
  rw [List.length_append, List.length_map] at ends
  rw [List.length_map, Nat.zero_add] at atName
  have isLexeme : (tokens.get words.length).lexeme = name := congrArg Word.lexeme atName
  refine ⟨⟨?_, ?_, ?_, rfl⟩, isLexeme, by simpa using ends⟩
  · rintro _ isKeyword
    obtain ⟨word, isWord, rfl⟩ := List.mem_map.mp isKeyword
    exact (specify word isWord).2
  · change tokens.Shows 0 _
    simpa [Function.comp_def, Word.keyword, Word.identifier, Word.semicolon, Word.punctuator]
      using has.shows
  · change isCTypeName _ (tokens.get (0 + (words.map Prod.snd).length)).lexeme = false
    rw [List.length_map, Nat.zero_add, isLexeme, isCTypeName, beq_false_of_ne notBuiltin]
    rfl

theorem parseDeclaration_words (specify : ∀ word ∈ words, IsSpecifierIn dialect word)
    (isName : IsName dialect name) (notBuiltin : name ≠ "__builtin_va_list") (buffer : String) :
    ∃ place token, token.lexeme = name ∧
      (parseDeclaration dialect ⟨buffer, declarationText words name⟩).2.count =
        specifierProblems dialect (words.map Prod.snd) ∧
      (words ≠ [] → (parseDeclaration dialect ⟨buffer, declarationText words name⟩).1 =
        some (declaredNode place (words.map Prod.snd) token)) := by
  obtain ⟨tokens, tokenized, isWords⟩ :=
    (ScansAs.declarationText specify isName).tokenize buffer .empty
  have parsed : parseDeclaration dialect ⟨buffer, declarationText words name⟩ =
      (cLanguage dialect).parseRule StartRule.declaration.name tokens .empty := by
    rw [parseDeclaration, tokenized]
    rfl
  obtain ⟨atDeclaration, isLexeme, ends⟩ := atDeclaration_of_words specify notBuiltin isWords
  have isDialect : ((cLanguage dialect).context tokens).dialect = dialect := dialect_cLanguage dialect
  refine ⟨(tokens.get 0).location, tokens.get words.length, isLexeme, ?_⟩
  rw [parsed]
  by_cases notEmpty : words = []
  · subst notEmpty
    -- Without any word there is no declaration, but its problem is recorded all the same.
    obtain ⟨reason, next, gaveUp, count⟩ := atDeclaration.groupedDeclaration_nil 1023
    rw [Language.parseRule_error .declaration gaveUp]
    exact ⟨count, fun some => absurd rfl some⟩
  · obtain ⟨next, read, place, count⟩ :=
      atDeclaration.groupedDeclaration (by simpa using notEmpty) 1023
    rw [List.length_map] at read place
    have atEnd : (tokens.get next.position).kind = .endOfFile := by
      rw [place]
      simpa [ParseState.first] using ends
    rw [Language.parseRule_ok .declaration read atEnd]
    rw [isDialect] at count
    have fromEmpty : next.diagnostics.count =
        0 + specifierProblems dialect (words.map Prod.snd) := count
    refine ⟨fromEmpty.trans (Nat.zero_add _), fun _ => ?_⟩
    have isToken : ((cLanguage dialect).context tokens).tokens.get
        ((ParseState.first .empty).position + words.length) = tokens.get words.length := by
      simp [ParseState.first]
    rw [isToken]
    rfl

/-- The order of the words in front of a declared name does not matter: there are as many problems in each
order, and where there is none the trees have the same shape. -/
theorem parseDeclaration_perm (dialect : Dialect) (words others : List (String × Keyword))
    (name buffer otherBuffer : String) (specify : ∀ word ∈ words, IsSpecifierIn dialect word)
    (isName : IsName dialect name) (notBuiltin : name ≠ "__builtin_va_list")
    (same : words.Perm others) :
    let first := parseDeclaration dialect ⟨buffer, declarationText words name⟩
    let second := parseDeclaration dialect ⟨otherBuffer, declarationText others name⟩
    first.2.count = second.2.count ∧
      (first.2.count = 0 → ∃ node other, first.1 = some node ∧ second.1 = some other ∧
        node.sameShape other = true) := by
  obtain ⟨place, token, isToken, firstCount, firstTree⟩ :=
    parseDeclaration_words specify isName notBuiltin buffer
  obtain ⟨otherPlace, otherToken, isOtherToken, secondCount, secondTree⟩ :=
    parseDeclaration_words (fun word isWord => specify word (same.mem_iff.mpr isWord)) isName
      notBuiltin otherBuffer
  have sameWords := same.map Prod.snd
  refine ⟨?_, fun noProblem => ?_⟩
  · rw [firstCount, secondCount, specifierProblems_perm sameWords]
  · rw [firstCount, specifierProblems] at noProblem
    split at noProblem
    · cases noProblem
    · rename_i someWords
      have notEmpty : words ≠ [] := by
        rintro rfl
        exact someWords rfl
      refine ⟨_, _, firstTree notEmpty, secondTree ?_, ?_⟩
      · rintro rfl
        exact notEmpty same.eq_nil
      · exact sameShape_declaredNode sameWords (by omega) place otherPlace
          (isToken.trans isOtherToken.symm)

def sampleSpecifiers : List (String × Keyword) :=
  [("long", .longWord), ("static", .staticWord), ("unsigned", .unsignedWord), ("const", .constWord)]

theorem parseDeclaration_perm_sample :
    (∀ word ∈ sampleSpecifiers, IsSpecifierIn ⟨.c17, false⟩ word) ∧
      IsName ⟨.c17, false⟩ "x" ∧ "x" ≠ "__builtin_va_list" ∧
      sampleSpecifiers.Perm sampleSpecifiers.reverse ∧
      let first := parseDeclaration ⟨.c17, false⟩ ⟨"a.c", declarationText sampleSpecifiers "x"⟩
      let second :=
        parseDeclaration ⟨.c17, false⟩ ⟨"b.c", declarationText sampleSpecifiers.reverse "x"⟩
      first.2.count = second.2.count ∧
        (first.2.count = 0 → ∃ node other, first.1 = some node ∧ second.1 = some other ∧
          node.sameShape other = true) := by
  have specify : ∀ word ∈ sampleSpecifiers, IsSpecifierIn ⟨.c17, false⟩ word := by
    decide +kernel
  have isName : IsName ⟨.c17, false⟩ "x" := by decide
  have notBuiltin : "x" ≠ "__builtin_va_list" := by decide
  have same : sampleSpecifiers.Perm sampleSpecifiers.reverse := (List.reverse_perm _).symm
  exact ⟨specify, isName, notBuiltin, same,
    parseDeclaration_perm ⟨.c17, false⟩ _ _ "x" "a.c" "b.c" specify isName notBuiltin same⟩

example : declarationText sampleSpecifiers.reverse "x" = "const unsigned static long x;" := by
  decide +kernel

example : specifierProblems ⟨.c17, false⟩ (sampleSpecifiers.map Prod.snd) = 0 := by
  decide

end CFrontEnd
