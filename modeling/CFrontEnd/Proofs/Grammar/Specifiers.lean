import CFrontEnd.Proofs.Grammar.Questions
import CFrontEnd.Grammar.Rules.Specifiers

/-!
The specifiers in front of declarators: words that spell a type together, qualifiers, `typedef`, and
the names of types. One lemma says what each of them adds, and one where the specifiers end.
-/

namespace CFrontEnd

/-- The words that spell the built-in types. -/
def Keyword.spellsType : Keyword → Bool
  | .voidWord | .charWord | .shortWord | .intWord | .longWord | .floatWord | .doubleWord
  | .signedWord | .unsignedWord | .boolWord | .complexWord | .imaginaryWord | .int128Word
  | .float16Word | .float32Word | .float64Word | .float128Word | .float32xWord | .float64xWord
  | .decimal32Word | .decimal64Word | .decimal128Word | .autoTypeWord => true
  | _ => false

/-- The kinds of tokens that may go on with the specifiers, whatever they are. -/
def TokenKind.maySpecify : TokenKind → Bool
  | .keyword _ | .identifier | .punctuator .openBracket => true
  | _ => false

namespace Productions

open Parse

variable {deeper : Productions} {context : ParseContext} {state : ParseState}
  {specifiers : DeclarationSpecifiers} {admitsStorage : Bool} {word : Keyword}

theorem addWord?_apart {token : Token}
    (isApart : word ∈ [.attributeWord, .extensionWord, .alignasWord]) :
    addWord? specifiers token word admitsStorage = none := by
  simp only [List.mem_cons, List.not_mem_nil, or_false] at isApart
  rcases isApart with rfl | rfl | rfl <;> rfl

theorem namedType?_apart {next : Token}
    (isApart : word ∈ [.attributeWord, .extensionWord, .alignasWord]) :
    namedType? deeper word next = none := by
  simp only [List.mem_cons, List.not_mem_nil, or_false] at isApart
  rcases isApart with rfl | rfl | rfl <;> rfl

/-! ## One specifier -/

theorem addSpecifier_alignment
    (isWord : (context.tokens.get state.position).kind = .keyword .alignasWord) :
    addSpecifier deeper admitsStorage specifiers context state =
      (alignment deeper >>= fun node => pure (.yield { specifiers with
        isPresent := true
        alignments := specifiers.alignments.push node })) context state := by
  simp [addSpecifier, isWord]

/-- A word that begins a type of its own is the beginning of that type. -/
theorem addSpecifier_named {production : Parse Node}
    (isWord : (context.tokens.get state.position).kind = .keyword word)
    (begins : namedType? deeper word (context.tokens.get (state.position + 1)) = some production) :
    addSpecifier deeper admitsStorage specifiers context state =
      (production >>= fun type => ForInStep.yield <$> addNamedType
        { specifiers with isPresent := true } (context.tokens.get state.position) type)
        context state := by
  have ordinary : word ∉ [.attributeWord, .extensionWord, .alignasWord] := by
    intro isApart
    rw [namedType?_apart isApart] at begins
    cases begins
  simp only [List.mem_cons, List.not_mem_nil, not_or] at ordinary
  simp [addSpecifier, isWord, ordinary, begins]

/-- Another word is passed, and then what it adds is added. -/
theorem addSpecifier_addition {addition : Parse DeclarationSpecifiers}
    (isWord : (context.tokens.get state.position).kind = .keyword word)
    (noType : namedType? deeper word (context.tokens.get (state.position + 1)) = none)
    (adds : addWord? { specifiers with isPresent := true } (context.tokens.get state.position) word
      admitsStorage = some addition) :
    addSpecifier deeper admitsStorage specifiers context state =
      (discard advance >>= fun _ => ForInStep.yield <$> addition) context state := by
  have ordinary : word ∉ [.attributeWord, .extensionWord, .alignasWord] := by
    intro isApart
    rw [addWord?_apart isApart] at adds
    cases adds
  -- The cases of these three come before the one for all other words.
  simp only [List.mem_cons, List.not_mem_nil, not_or] at ordinary
  simp [addSpecifier, isWord, ordinary, noType, adds]

/-- The name of a type specifies one where there is no other. -/
theorem addSpecifier_firstName
    (isName : (context.tokens.get state.position).kind = .identifier)
    (isType : context.language.isTypeName state.scopes.isTypedefName
      (context.tokens.get state.position).lexeme = true)
    (noOther : specifiers.named = none) (noWords : specifiers.words = #[]) :
    addSpecifier deeper admitsStorage specifiers context state =
      .ok (.yield { specifiers with
        isPresent := true
        named := some (.named .typedefName (context.tokens.get state.position).location
          (context.tokens.get state.position).lexeme) })
        (state.movedTo (state.position + 1)) := by
  simp [addSpecifier, isName, isType, noOther, noWords]

/-! ## The specifiers from one on -/

theorem addSpecifier_added {addition : Parse DeclarationSpecifiers}
    {after : DeclarationSpecifiers} {next : ParseState}
    (isWord : (context.tokens.get state.position).kind = .keyword word)
    (noType : namedType? deeper word (context.tokens.get (state.position + 1)) = none)
    (adds : addWord? { specifiers with isPresent := true } (context.tokens.get state.position) word
      admitsStorage = some addition)
    (added : addition context (state.movedTo (state.position + 1)) = .ok after next)
    (place : next.position = state.position + 1) :
    repeatFrom (addSpecifier deeper admitsStorage) specifiers context state =
      repeatFrom (addSpecifier deeper admitsStorage) after context next := by
  have fewer : next.remaining context < state.remaining context := by
    have moved : (state.movedTo (state.position + 1)).remaining context < state.remaining context :=
      ParseState.remaining_movedTo_lt (by simp [isWord]) (by omega)
    simpa only [ParseState.remaining, ParseState.position_movedTo, place] using moved
  refine repeatFrom_yield ?_ fewer
  rw [addSpecifier_addition isWord noType adds]
  simp [isWord, added]

theorem addSpecifier_word {after : DeclarationSpecifiers}
    (isWord : (context.tokens.get state.position).kind = .keyword word)
    (noType : namedType? deeper word (context.tokens.get (state.position + 1)) = none)
    (adds : addWord? { specifiers with isPresent := true } (context.tokens.get state.position) word
      admitsStorage = some (pure after)) :
    repeatFrom (addSpecifier deeper admitsStorage) specifiers context state =
      repeatFrom (addSpecifier deeper admitsStorage) after context
        (state.movedTo (state.position + 1)) :=
  addSpecifier_added isWord noType adds rfl rfl

theorem addSpecifier_typeWord
    (isWord : (context.tokens.get state.position).kind = .keyword word)
    (spells : word.spellsType = true) :
    repeatFrom (addSpecifier deeper admitsStorage) specifiers context state =
      repeatFrom (addSpecifier deeper admitsStorage)
        { specifiers with isPresent := true, words := specifiers.words.push word } context
        (state.movedTo (state.position + 1)) := by
  apply addSpecifier_word isWord
  · revert spells
    cases word <;> simp [Keyword.spellsType, namedType?]
  · revert spells
    cases word <;> simp [Keyword.spellsType, addWord?, Qualifiers.add?, Keyword.isStorageWord,
      Keyword.storageClass?, Keyword.beginsType]

theorem addSpecifier_qualifier {qualifiers : Qualifiers}
    (isWord : (context.tokens.get state.position).kind = .keyword word)
    (qualifies : specifiers.qualifiers.add? word = some qualifiers)
    (noAtomicType : (context.tokens.get (state.position + 1)).kind ≠ .punctuator .openParen) :
    repeatFrom (addSpecifier deeper admitsStorage) specifiers context state =
      repeatFrom (addSpecifier deeper admitsStorage)
        { specifiers with isPresent := true, qualifiers := qualifiers } context
        (state.movedTo (state.position + 1)) := by
  apply addSpecifier_word isWord
  · revert qualifies
    cases word <;> simp [Qualifiers.add?, namedType?, noAtomicType]
  · simp [addWord?, qualifies]

theorem addSpecifier_typedef
    (isWord : (context.tokens.get state.position).kind = .keyword .typedefWord)
    (noStorage : specifiers.hasStorage = false) :
    repeatFrom (addSpecifier deeper true) specifiers context state =
      repeatFrom (addSpecifier deeper true)
        { specifiers with isPresent := true, isTypedef := true, storage := none } context
        (state.movedTo (state.position + 1)) := by
  apply addSpecifier_word isWord rfl
  have stillNone : ({ specifiers with isPresent := true } : DeclarationSpecifiers).hasStorage =
      false := noStorage
  simp [addWord?, Qualifiers.add?, Keyword.isStorageWord, Keyword.storageClass?, addStorage,
    stillNone]

theorem addSpecifier_typedefName
    (isName : (context.tokens.get state.position).kind = .identifier)
    (isType : context.language.isTypeName state.scopes.isTypedefName
      (context.tokens.get state.position).lexeme = true)
    (noOther : specifiers.named = none) (noWords : specifiers.words = #[]) :
    repeatFrom (addSpecifier deeper admitsStorage) specifiers context state =
      repeatFrom (addSpecifier deeper admitsStorage)
        { specifiers with
          isPresent := true
          named := some (.named .typedefName (context.tokens.get state.position).location
            (context.tokens.get state.position).lexeme) }
        context (state.movedTo (state.position + 1)) :=
  repeatFrom_yield (addSpecifier_firstName isName isType noOther noWords)
    (ParseState.remaining_movedTo_lt (by simp [isName]) (by omega))

/-- A name behind another type does not specify one. -/
theorem addSpecifier_name
    (isName : (context.tokens.get state.position).kind = .identifier)
    (hasType : specifiers.named.isSome = true ∨ specifiers.words ≠ #[]) :
    repeatFrom (addSpecifier deeper admitsStorage) specifiers context state =
      .ok specifiers state := by
  have notFirst : (specifiers.named.isNone && specifiers.words.isEmpty) = false := by
    rcases hasType with named | words
    · simp [Option.ne_none_iff_isSome.mpr named]
    · simp [words]
  exact repeatFrom_done (by simp [addSpecifier, isName, notFirst])

theorem addSpecifier_done
    (ends : (context.tokens.get state.position).kind.maySpecify = false) :
    repeatFrom (addSpecifier deeper admitsStorage) specifiers context state =
      .ok specifiers state := by
  have noBracket : (context.tokens.get state.position).kind ≠ .punctuator .openBracket := by
    intro same
    simp [same, TokenKind.maySpecify] at ends
  apply repeatFrom_done
  cases kind : (context.tokens.get state.position).kind with
  | keyword word => simp [kind, TokenKind.maySpecify] at ends
  | identifier => simp [kind, TokenKind.maySpecify] at ends
  | _ => simp [addSpecifier, kind, TokenStream.startsBrackets_false noBracket]

end Productions

end CFrontEnd
