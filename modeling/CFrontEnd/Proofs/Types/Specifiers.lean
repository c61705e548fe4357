import CFrontEnd.Proofs.Types.Parts

/-!
Built-in types in front of a declarator: their qualifiers and their words are read as specifiers that
give the type back.
-/

namespace CFrontEnd

theorem wordsText_append {first second : List Keyword} (some : first ≠ []) (more : second ≠ []) :
    wordsText (first ++ second) = wordsText first ++ " " ++ wordsText second := by
  unfold wordsText
  rw [List.map_append]
  exact String.intercalate_append_of_ne_nil (by simpa using some) (by simpa using more)

/-! ## Specifiers -/

/-- The specifiers that qualifiers and the words of a type give. -/
def DeclarationSpecifiers.spelled (place : SourceLocation) (qualifiers : Qualifiers)
    (words : List Keyword) : DeclarationSpecifiers :=
  { location := place, qualifiers := qualifiers, words := words.toArray, isPresent := true }

namespace DeclarationSpecifiers

variable (place : SourceLocation) (qualifiers : Qualifiers) (words : List Keyword)

@[simp] theorem isPresent_spelled : (spelled place qualifiers words).isPresent = true := rfl

@[simp] theorem storage_spelled : (spelled place qualifiers words).storage = none := rfl

@[simp] theorem isTypedef_spelled : (spelled place qualifiers words).isTypedef = false := rfl

@[simp] theorem isThreadLocal_spelled : (spelled place qualifiers words).isThreadLocal = false :=
  rfl

@[simp] theorem alignments_spelled : (spelled place qualifiers words).alignments = #[] := rfl

end DeclarationSpecifiers

namespace Productions

open Parse

variable {deeper : Productions} {context : ParseContext} {state : ParseState}
  {specifiers : DeclarationSpecifiers} {admitsStorage : Bool} {keywords words : List Keyword}

theorem keyword_of_words {stream : TokenStream} {place : Nat} (notEmpty : words ≠ [])
    (has : stream.HasWordsAt place (words.map Word.ofKeyword)) :
    ∃ word, (stream.get place).kind = .keyword word := by
  obtain ⟨first, rest, rfl⟩ := List.exists_cons_of_ne_nil notEmpty
  exact ⟨first, Token.kind_of_word has.1⟩

variable (deeper specifiers admitsStorage) in
theorem addSpecifier_qualifiers {before after : Qualifiers}
    (isBefore : specifiers.qualifiers = before)
    (adds : keywords.foldlM Qualifiers.add? before = some after) (notEmpty : words ≠ [])
    (has : context.tokens.HasWordsAt state.position ((keywords ++ words).map Word.ofKeyword)) :
    ∃ isPresent, repeatFrom (addSpecifier deeper admitsStorage) specifiers context state =
      repeatFrom (addSpecifier deeper admitsStorage)
        { specifiers with isPresent := isPresent, qualifiers := after } context
        (state.movedTo (state.position + keywords.length)) := by
  induction keywords generalizing specifiers before state with
  | nil =>
    obtain rfl := Option.some.inj adds
    exact ⟨specifiers.isPresent, by simp [← isBefore]⟩
  | cons keyword rest ih =>
    obtain ⟨isWord, hasRest⟩ := has
    rw [List.foldlM_cons, Option.bind_eq_bind, Option.bind_eq_some_iff] at adds
    obtain ⟨middle, addsFirst, addsRest⟩ := adds
    obtain ⟨next, isNext⟩ := keyword_of_words (by simp [notEmpty]) hasRest
    rw [addSpecifier_qualifier (Token.kind_of_word isWord) (by rw [isBefore]; exact addsFirst)
      (by simp [isNext])]
    have place : state.position + (rest.length + 1) = state.position + 1 + rest.length := by omega
    rw [List.length_cons, place]
    exact ih _ rfl addsRest hasRest

theorem addSpecifier_typeWords (spell : ∀ word ∈ words, word.spellsType = true)
    (notEmpty : words ≠ [])
    (has : context.tokens.HasWordsAt state.position (words.map Word.ofKeyword)) :
    repeatFrom (addSpecifier deeper admitsStorage) specifiers context state =
      repeatFrom (addSpecifier deeper admitsStorage)
        { specifiers with isPresent := true, words := specifiers.words ++ words.toArray } context
        (state.movedTo (state.position + words.length)) := by
  induction words generalizing specifiers state with
  | nil => exact absurd rfl notEmpty
  | cons word rest ih =>
    obtain ⟨isWord, hasRest⟩ := has
    rw [addSpecifier_typeWord (Token.kind_of_word isWord) (spell word (by simp))]
    by_cases isLast : rest = []
    · simp [isLast]
    · have place : state.position + (rest.length + 1) = state.position + 1 + rest.length := by omega
      have later : repeatFrom (addSpecifier deeper admitsStorage)
          { specifiers with isPresent := true, words := specifiers.words.push word } context
          (state.movedTo (state.position + 1)) = _ :=
        ih (fun other inRest => spell other (List.mem_cons_of_mem word inRest)) isLast hasRest
      rw [List.length_cons, place]
      simpa using later

/-- Behind the words of a type no declarator goes on with the specifiers. -/
theorem addSpecifier_atDeclarator (stands : context.tokens.AtDeclarator state.position)
    (hasWords : specifiers.words ≠ #[]) :
    repeatFrom (addSpecifier deeper admitsStorage) specifiers context state =
      .ok specifiers state := by
  cases stands with
  | other noSpecifier => exact addSpecifier_done noSpecifier
  | name isName => exact addSpecifier_name isName (.inr hasWords)
  | array opens single =>
    exact repeatFrom_done (by simp [addSpecifier, opens, TokenStream.startsBrackets, single])

theorem specifiersRule_spelled {qualifiers : Qualifiers} (canonical : words ∈ canonicalWords)
    (has : context.tokens.HasWordsAt state.position
      ((qualifiers.keywords ++ words).map Word.ofKeyword))
    (stands : context.tokens.AtDeclarator
      (state.position + (qualifiers.keywords ++ words).length)) :
    specifiersRule deeper admitsStorage context state =
      .ok (.spelled (context.tokens.get state.position).location qualifiers words)
        (state.movedTo (state.position + (qualifiers.keywords ++ words).length)) := by
  have notEmpty := canonicalWords_ne_nil words canonical
  have place : state.position + (qualifiers.keywords ++ words).length =
      state.position + qualifiers.keywords.length + words.length := by
    rw [List.length_append]
    omega
  rw [place] at stands ⊢
  have split := has
  rw [List.map_append, TokenStream.hasWordsAt_append, List.length_map] at split
  obtain ⟨isPresent, qualified⟩ := addSpecifier_qualifiers deeper
    { location := (context.tokens.get state.position).location } admitsStorage rfl
    qualifiers.foldlM_keywords notEmpty has
  simp only [specifiersRule, bind_apply, location_apply, iterate_apply]
  rw [qualified, addSpecifier_typeWords (spellsType_canonical words canonical) notEmpty split.2,
    addSpecifier_atDeclarator stands (by simpa using notEmpty)]
  simp [DeclarationSpecifiers.spelled]

theorem baseType_spelled {place : SourceLocation} {qualifiers : Qualifiers}
    (canonical : words ∈ canonicalWords) :
    baseType (.spelled place qualifiers words) context state =
      .ok (qualifiers.apply place (.named .builtinType place (wordsText words))) state := by
  have notEmpty := canonicalWords_ne_nil words canonical
  have named := writtenType_eq_named.mpr ⟨notEmpty, builtinTypeName?_canonical words canonical⟩
  simp [baseType, unqualifiedBaseType, DeclarationSpecifiers.spelled, named]

end Productions

/-! ## Bases -/

/-- A base is written with its qualifiers in front of the words of its type. -/
theorem IsBaseType.spelled {base : Node} (isBase : IsBaseType base) :
    ∃ (qualifiers : Qualifiers) (words : List Keyword), words ∈ canonicalWords ∧
      (∀ inner, base.declaratorText inner =
        Spelling.before (wordsText (qualifiers.keywords ++ words)) inner) ∧
      (∀ place, (qualifiers.apply place
        (.named .builtinType place (wordsText words))).sameShape base = true) ∧
      (qualifiers.keywords ++ words = [.voidWord] →
        ∃ spot, base = ⟨.builtinType, spot, .name "void", []⟩) := by
  cases isBase with
  | @builtin spot name isBuiltin =>
    obtain ⟨words, canonical, rfl⟩ := isBuiltin.canonical
    refine ⟨{}, words, canonical, fun inner => rfl, fun place => ?_, fun isVoid => ?_⟩
    · simp [Qualifiers.apply, Qualifiers.isEmpty, Qualifiers.words, Node.named, Node.leaf,
        Node.sameShape, Node.sameShapes]
    · have isVoid : words = [.voidWord] := isVoid
      exact ⟨spot, by rw [isVoid]; rfl⟩
  | @qualified spot inside qualifiers name someQualifiers isBuiltin =>
    obtain ⟨words, canonical, rfl⟩ := isBuiltin.canonical
    have notEmpty := canonicalWords_ne_nil words canonical
    have someKeywords := Qualifiers.keywords_ne_nil someQualifiers
    refine ⟨qualifiers, words, canonical, fun inner => ?_, fun place => ?_, fun isVoid => ?_⟩
    · rw [wordsText_append someKeywords notEmpty, ← Qualifiers.text_eq]
      change qualifiers.text ++ " " ++ Spelling.before (wordsText words) inner = _
      unfold Spelling.before
      split <;> simp [String.append_assoc]
    · simp [Qualifiers.apply, someQualifiers, Node.named, Node.leaf, Node.sameShape,
        Node.sameShapes]
    -- A single word cannot be both a qualifier and the type.
    · have length := congrArg List.length isVoid
      have first := List.length_pos_iff.mpr someKeywords
      have second := List.length_pos_iff.mpr notEmpty
      simp only [List.length_append, List.length_singleton] at length
      omega

/-! ## Types in front of declarators -/

theorem Keyword.beginsType_of_spellsType {keyword : Keyword} (spells : keyword.spellsType = true) :
    keyword.beginsType = true := by
  revert spells
  cases keyword <;> decide

theorem Qualifiers.beginsType_keywords : ∀ keyword ∈
    [Keyword.constWord, .volatileWord, .restrictWord, .atomicWord],
    keyword.beginsType = true := by
  decide

/-- A type up to `stop` is read as specifiers and a whole declarator, which together give the tree. -/
structure ReadsTypeAt (form : DeclaratorForm) (context : ParseContext) (state : ParseState)
    (need stop : Nat) (name : Option String) (tree : Node) (place : Nat)
    (specifiers : DeclarationSpecifiers) (base : Node) (around : Node → Node) : Prop where
  specified : ∀ levels admitsStorage, Demands 1 levels state.diagnostics
    ((Productions.ofLevels levels).specifiers admitsStorage context state)
    ((Productions.ofLevels levels).specifiers admitsStorage context state =
      .ok specifiers (state.movedTo place))
  plain : ∃ place qualifiers words, specifiers = .spelled place qualifiers words
  based : ∀ state, Parse.baseType specifiers context state = .ok base state
  declares : name ≠ none → (context.tokens.get place).kind.endsDeclarator = false
  declared : ReadsWhole form context (state.movedTo place) need stop name around
  derives : ∀ declarator : Declarator, DerivesType declarator.derivations around →
    (declarator.type base).sameShape tree = true

/-- What is written as `text` is scanned as these words, and they are read as the type of what is
declared. -/
structure ReadsType (form : DeclaratorForm) (text : String) (words : List Word) (need : Nat)
    (name : Option String) (tree : Node) : Prop where
  scans : ∀ next, EndsPart next → ScansAs gnuC23 text.toList words next
  begins : ∃ keyword rest, words = .ofKeyword keyword :: rest ∧ keyword.beginsType = true ∧
    ∀ word ∈ rest.head?, word.kind.endsDeclarator = false
  bare : words = [.ofKeyword .voidWord] →
    name = none ∧ ∃ spot, tree = ⟨.builtinType, spot, .name "void", []⟩
  reads : ∀ {context : ParseContext} {state : ParseState},
    context.language = cLanguage gnuC23 → state.IsPlain →
    context.tokens.HasWordsAt state.position words →
    (context.tokens.get (state.position + words.length)).kind.endsDeclarator = true →
    ∃ place specifiers base around, ReadsTypeAt form context state need
      (state.position + words.length) name tree place specifiers base around

/-- The type is written with qualifiers and words, and with the part of a declarator behind them. -/
structure SpelledType (form : DeclaratorForm) (tree : Node) (inner : String)
    (qualifiers : Qualifiers) (typeWords : List Keyword) (words : List Word) (isPointer : Bool)
    (need : Nat) (name : Option String) (around : Node → Node) : Prop where
  canonical : typeWords ∈ canonicalWords
  part : ReadsPart form inner words isPointer need name around
  bare : words = [] → name = none ∧ (qualifiers.keywords ++ typeWords = [.voidWord] →
    ∃ spot, tree = ⟨.builtinType, spot, .name "void", []⟩)
  derives : ∀ (place : SourceLocation) (declarator : Declarator),
    DerivesType declarator.derivations around →
      (declarator.type (qualifiers.apply place
        (.named .builtinType place (wordsText typeWords)))).sameShape tree = true

namespace SpelledType

open Parse Productions

variable {form : DeclaratorForm} {tree : Node} {inner : String} {qualifiers : Qualifiers}
  {typeWords : List Keyword} {words : List Word} {isPointer : Bool} {need : Nat}
  {name : Option String} {around : Node → Node}

theorem keywords_ne_nil
    (spelled : SpelledType form tree inner qualifiers typeWords words isPointer need name around) :
    qualifiers.keywords ++ typeWords ≠ [] := by
  simp [canonicalWords_ne_nil typeWords spelled.canonical]

theorem isSpelled (canonical : typeWords ∈ canonicalWords) :
    ∀ keyword ∈ qualifiers.keywords ++ typeWords, keyword.IsSpelled := by
  intro keyword inKeywords
  rcases List.mem_append.mp inKeywords with inQualifiers | inWords
  · exact Qualifiers.isSpelled_keywords keyword inQualifiers
  · exact Keyword.isSpelled_of_spellsType keyword
      (spellsType_canonical typeWords canonical keyword inWords)

theorem scans
    (spelled : SpelledType form tree inner qualifiers typeWords words isPointer need name around)
    {next : List Char} (ends : EndsPart next) :
    ScansAs gnuC23
      (Spelling.before (wordsText (qualifiers.keywords ++ typeWords)) inner).toList
      ((qualifiers.keywords ++ typeWords).map Word.ofKeyword ++ words) next := by
  have notEmpty := spelled.keywords_ne_nil
  have isSpelled : ∀ keyword ∈ qualifiers.keywords ++ typeWords, keyword.IsSpelled :=
    isSpelled spelled.canonical
  by_cases isEmpty : inner = ""
  · obtain rfl := isEmpty
    obtain rfl := spelled.part.empty.mp rfl
    simpa [Spelling.before] using ScansAs.keywords notEmpty isSpelled ends.word
  · have blank : EndsWord (' ' :: inner.toList ++ next) := .cons _ (by decide)
    have scans := (ScansAs.keywords notEmpty isSpelled blank).append
      (.space (spelled.part.scans next ends))
    simpa [Spelling.before, isEmpty] using scans

theorem readsType
    (spelled : SpelledType form tree inner qualifiers typeWords words isPointer need name around) :
    ReadsType form (Spelling.before (wordsText (qualifiers.keywords ++ typeWords)) inner)
      ((qualifiers.keywords ++ typeWords).map Word.ofKeyword ++ words) need name tree where
  scans _ ends := spelled.scans ends
  begins := by
    have isKeyword (keyword : Keyword) (inKeywords : keyword ∈ qualifiers.keywords ++ typeWords) :
        keyword.beginsType = true := by
      rcases List.mem_append.mp inKeywords with inQualifiers | inWords
      · exact Qualifiers.beginsType_keywords keyword (Qualifiers.mem_keywords inQualifiers)
      · exact Keyword.beginsType_of_spellsType
          (spellsType_canonical typeWords spelled.canonical keyword inWords)
    obtain ⟨first, others, keywords⟩ := List.exists_cons_of_ne_nil spelled.keywords_ne_nil
    rw [keywords] at isKeyword ⊢
    refine ⟨first, _, rfl, isKeyword first (by simp), ?_⟩
    cases others with
    | nil => exact spelled.part.begins
    | cons second _ => simp [Word.ofKeyword, Word.keyword, TokenKind.endsDeclarator]
  bare isVoid := by
    obtain ⟨first, others, keywords⟩ := List.exists_cons_of_ne_nil spelled.keywords_ne_nil
    rw [keywords, List.map_cons, List.cons_append, List.cons.injEq, List.append_eq_nil_iff,
      List.map_eq_nil_iff] at isVoid
    obtain ⟨isFirst, rfl, noWords⟩ := isVoid
    obtain ⟨noName, isTree⟩ := spelled.bare noWords
    obtain ⟨isKeyword, _⟩ := Word.mk.inj isFirst
    obtain rfl := TokenKind.keyword.inj isKeyword
    exact ⟨noName, isTree keywords⟩
  reads {context state} isC plain has ends := by
    rw [TokenStream.hasWordsAt_append, List.length_map] at has
    obtain ⟨hasKeywords, hasWords⟩ := has
    have length : state.position +
        ((qualifiers.keywords ++ typeWords).map Word.ofKeyword ++ words).length =
        state.position + (qualifiers.keywords ++ typeWords).length + words.length := by
      simp
      omega
    rw [length] at ends ⊢
    have stands := spelled.part.stands hasWords (.ends ends)
    refine ⟨state.position + (qualifiers.keywords ++ typeWords).length, _, _, _, ?_,
      ⟨_, _, _, rfl⟩, fun _ => baseType_spelled spelled.canonical, ?_, ?_,
      spelled.derives (context.tokens.get state.position).location⟩
    · intro levels admitsStorage
      cases levels with
      | zero => exact ⟨fun enough => absurd enough (by omega), fun _ => .exhausted plain.calm⟩
      | succ levels =>
        refine ⟨fun _ => ?_, fun few => absurd few (by omega)⟩
        exact specifiersRule_spelled spelled.canonical hasKeywords stands
    · intro isNamed
      cases words with
      | nil => exact absurd (spelled.bare rfl).1 isNamed
      | cons word rest =>
        rw [Token.kind_of_word hasWords.1]
        exact spelled.part.begins word rfl
    · exact (spelled.part.reads isC (plain.movedTo _) hasWords (.ends ends)).whole ends

end SpelledType

end CFrontEnd
