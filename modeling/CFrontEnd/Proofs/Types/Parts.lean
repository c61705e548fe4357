import CFrontEnd.Proofs.Expression.Grammar
import CFrontEnd.Proofs.Grammar.Specifiers
import CFrontEnd.Proofs.Scan.Chains
import CFrontEnd.Proofs.Types.Declarators
import CFrontEnd.Proofs.Types.Trees

/-!
Parts of written declarators, with the words they are scanned as. A part grows outward from the name:
a star is put in front of it, parentheses around it, and an array or a function behind it.
-/

namespace CFrontEnd

/-! ## What stands around a part -/

/-- No character stands here, or one that a declarator is ended or gone on with. -/
def EndsPart (next : List Char) : Prop :=
  ∀ character, next.head? = some character → character ∈ [')', ',', ';', '[', '(']

namespace EndsPart

variable {next : List Char}

theorem nil : EndsPart [] := by
  rintro _ ⟨⟩

theorem cons {character : Char} (later : List Char)
    (ends : character ∈ [')', ',', ';', '[', '(']) : EndsPart (character :: later) := by
  rintro _ ⟨⟩
  exact ends

theorem word (ends : EndsPart next) : EndsWord next := by
  intro character isNext
  have known := ends character isNext
  simp only [List.mem_cons, List.not_mem_nil, or_false] at known
  rcases known with rfl | rfl | rfl | rfl | rfl <;> decide

theorem star (ends : EndsPart next) : EndsSymbol "*" next := by
  intro character isNext
  have known := ends character isNext
  simp only [List.mem_cons, List.not_mem_nil, or_false] at known
  rcases known with rfl | rfl | rfl | rfl | rfl <;> decide

end EndsPart

theorem Token.kind_of_word {token : Token} {word : Word} (isWord : token.word = word) :
    token.kind = word.kind :=
  congrArg Word.kind isWord

/-- A declarator begins or ends here, and no specifier and no qualifier stands here. -/
inductive TokenStream.AtDeclarator (stream : TokenStream) (place : Nat) : Prop
  | other (noSpecifier : (stream.get place).kind.maySpecify = false)
  | name (isName : (stream.get place).kind = .identifier)
  | array (opens : (stream.get place).kind = .punctuator .openBracket)
      (single : (stream.get (place + 1)).kind ≠ .punctuator .openBracket)

namespace TokenStream

variable {stream : TokenStream} {place : Nat}

theorem FollowsDeclarator.atDeclarator (follows : stream.FollowsDeclarator place) :
    stream.AtDeclarator place := by
  cases follows with
  | ends isEnd =>
    refine .other ?_
    revert isEnd
    cases (stream.get place).kind with
    | punctuator punctuator => cases punctuator <;> decide
    | _ => simp [TokenKind.endsDeclarator, TokenKind.maySpecify]
  | array opens single => exact .array opens single
  | function opens _ => exact .other (by rw [opens]; rfl)

theorem AtDeclarator.noKeyword (stands : stream.AtDeclarator place) (word : Keyword) :
    (stream.get place).kind ≠ .keyword word := by
  intro isWord
  cases stands with
  | other noSpecifier => simp [isWord, TokenKind.maySpecify] at noSpecifier
  | name isName => simp [isWord] at isName
  | array opens _ => simp [isWord] at opens

end TokenStream

/-! ## Parts -/

/-- What is written as `inner` is scanned as these words, and they are read as the part of a declarator
in front of which `around` makes the type of the name. -/
structure ReadsPart (form : DeclaratorForm) (inner : String) (words : List Word) (isPointer : Bool)
    (need : Nat) (name : Option String) (around : Node → Node) : Prop where
  starts : (inner.toList.head? = some '*') = isPointer
  empty : inner = "" ↔ words = []
  begins : ∀ word ∈ words.head?, word.kind.endsDeclarator = false
  notAssigned : ∀ next, EndsPart next → EndsSymbol "*" (inner.toList ++ next)
  scans : ∀ next, EndsPart next → ScansAs gnuC23 inner.toList words next
  stands : ∀ {stream : TokenStream} {place : Nat}, stream.HasWordsAt place words →
    stream.FollowsDeclarator (place + words.length) → stream.AtDeclarator place
  reads : ∀ {context : ParseContext} {state : ParseState},
    context.language = cLanguage gnuC23 → state.IsPlain →
    context.tokens.HasWordsAt state.position words →
    context.tokens.FollowsDeclarator (state.position + words.length) →
    ReadsDeclarator form context state isPointer need (state.position + words.length) name around

/-- What is written as `text` is scanned as these words, and they are read as a step behind a
declarator. -/
structure ReadsStep (text : String) (words : List Word) (need : Nat) (step : Node → Node) : Prop where
  notEmpty : text ≠ "" ∧ words ≠ []
  ends : ∀ next, EndsPart (text.toList ++ next)
  begins : ∀ word ∈ words.head?, word.kind.endsDeclarator = false
  scans : ∀ next, ScansAs gnuC23 text.toList words next
  follows : ∀ {stream : TokenStream} {place : Nat}, stream.HasWordsAt place words →
    stream.FollowsDeclarator place ∧ (stream.get place).kind ≠ .endOfFile
  reads : ∀ {context : ParseContext} {state : ParseState},
    context.language = cLanguage gnuC23 → state.IsPlain →
    context.tokens.HasWordsAt state.position words →
    ReadsDerivation context state need (state.position + words.length) step

open Parse Productions

namespace ReadsPart

variable {form : DeclaratorForm} {inner : String} {words : List Word} {isPointer : Bool}
  {need : Nat} {name : Option String} {around : Node → Node}

theorem unnamed (abstract : form ≠ .named) : ReadsPart form "" [] false 0 none id where
  starts := by simp
  empty := by simp
  begins := by simp
  notAssigned next ends := ends.star
  scans next _ := .nil next
  stands _ follows := follows.atDeclarator
  reads _ _ _ follows := .empty abstract follows

theorem ofName {object : String} (named : form ≠ .abstract) (isName : IsObjectName object) :
    ReadsPart form object [.identifier object] false 0 (some object) id where
  starts := by
    obtain ⟨first, rest, characters, isFirst⟩ := beginsOperand_word isName.1.1
    rw [characters]
    suffices first ≠ '*' by simpa
    rintro rfl
    exact absurd isFirst (by decide)
  empty := by
    obtain ⟨first, rest, characters, _⟩ := beginsOperand_word isName.1.1
    simp [← String.toList_eq_nil_iff, characters]
  begins := by simp [Word.identifier, TokenKind.endsDeclarator]
  notAssigned next _ := .operand (by decide) (by decide) ((beginsOperand_word isName.1.1).append next)
  scans next ends := .identifier isName.1.1 isName.1.2 ends.word
  stands has _ := .name (Token.kind_of_word has.1)
  reads _ _ has _ := by
    obtain ⟨kind, lexeme, _⟩ := Token.word_eq_mk.mp has.1
    rw [← lexeme]
    exact .ofName named kind

/-! ### Stars -/

/-- A list of qualifiers is read behind a star. -/
theorem repeatFrom_addPointerQualifier {context : ParseContext} {keywords : List Keyword}
    {state : ParseState} {before after : Qualifiers}
    (adds : keywords.foldlM Qualifiers.add? before = some after)
    (has : context.tokens.HasWordsAt state.position (keywords.map Word.ofKeyword))
    (ends : context.tokens.AtDeclarator (state.position + keywords.length)) :
    repeatFrom addPointerQualifier before context state =
      .ok after (state.movedTo (state.position + keywords.length)) := by
  induction keywords generalizing before state with
  | nil =>
    obtain rfl := Option.some.inj adds
    exact addPointerQualifier_done ends.noKeyword
  | cons keyword rest ih =>
    obtain ⟨isWord, hasRest⟩ := has
    rw [List.foldlM_cons, Option.bind_eq_bind, Option.bind_eq_some_iff] at adds
    obtain ⟨middle, addsFirst, addsRest⟩ := adds
    have place : state.position + (rest.length + 1) = state.position + 1 + rest.length := by omega
    rw [List.length_cons, place] at ends ⊢
    rw [addPointerQualifier_word (Token.kind_of_word isWord) addsFirst]
    exact ih addsRest hasRest ends

theorem starred {text : String} {qualifiers : Qualifiers} {step : Node → Node}
    (part : ReadsPart form inner words isPointer need name around) (middle : List Char)
    (keywords : List Keyword)
    (isText : text.toList = '*' :: (middle ++ inner.toList))
    (adds : keywords.foldlM Qualifiers.add? {} = some qualifiers)
    (scansMiddle : ∀ next, EndsPart next →
      ScansAs gnuC23 (middle ++ inner.toList) (keywords.map Word.ofKeyword ++ words) next)
    (endsStar : ∀ next, EndsPart next → EndsSymbol "*" (middle ++ inner.toList ++ next))
    (derives : ∀ place, DerivesType [.pointer place qualifiers] step) :
    ReadsPart form text (.star :: (keywords.map Word.ofKeyword ++ words)) true need name
      (fun tree => around (step tree)) where
  starts := by simp [isText]
  empty := by simp [← String.toList_eq_nil_iff, isText]
  begins := by simp [Word.star, Word.operator, TokenKind.endsDeclarator]
  notAssigned next _ := by
    rw [isText]
    rintro _ ⟨⟩
    decide
  scans next ends := by
    have known : (TokenKind.operator .star, "*") ∈ cSymbolKinds := by decide
    rw [isText]
    exact .symbolThen known (endsStar next ends) (scansMiddle next ends)
  stands has _ := .other (by rw [Token.kind_of_word has.1]; rfl)
  reads {context state} isC plain has follows := by
    rw [TokenStream.hasWordsAt_cons, TokenStream.hasWordsAt_append, List.length_map] at has
    obtain ⟨isStar, hasKeywords, hasInner⟩ := has
    have length : state.position + (Word.star :: (keywords.map Word.ofKeyword ++ words)).length =
        state.position + 1 + keywords.length + words.length := by
      simp
      omega
    rw [length] at follows ⊢
    -- The loop over the qualifiers ends at what stands behind the star.
    have qualified : repeatFrom addPointerQualifier {} context
        (state.movedTo (state.position + 1)) = _ :=
      repeatFrom_addPointerQualifier adds hasKeywords (part.stands hasInner follows)
    have inside := part.reads isC
      (plain.movedTo (state.position + 1 + keywords.length)) hasInner follows
    exact .star (Token.kind_of_word isStar) qualified (by simp; omega) derives inside

theorem pointer {spot : SourceLocation}
    (part : ReadsPart form inner words isPointer need name around) :
    ReadsPart form ("*" ++ inner) (.star :: words) true need name
      (fun tree => around ⟨.pointerType, spot, .none, [tree]⟩) :=
  part.starred [] [] (by simp) rfl part.scans part.notAssigned
    fun _ => .pointer

theorem beginsOperand_wordsText {keywords : List Keyword} (notEmpty : keywords ≠ [])
    (spelled : ∀ keyword ∈ keywords, keyword.IsSpelled) :
    BeginsOperand (wordsText keywords).toList := by
  obtain ⟨first, rest, rfl⟩ := List.exists_cons_of_ne_nil notEmpty
  have begins := beginsOperand_word (spelled first (by simp)).1
  cases rest with
  | nil => rwa [wordsText, List.map_singleton, String.intercalate_singleton]
  | cons second others =>
    rw [wordsText, List.map_cons, List.map_cons, String.intercalate_cons_cons,
      String.toList_append, String.toList_append, List.append_assoc]
    exact begins.append _

theorem qualifiedPointer {spot inside : SourceLocation} {qualifiers : Qualifiers}
    (part : ReadsPart form inner words isPointer need name around)
    (someQualifiers : qualifiers.isEmpty = false) :
    ReadsPart form
      ("*" ++ qualifiers.text ++ (if inner.isEmpty then "" else " ") ++ inner)
      (.star :: (qualifiers.keywords.map Word.ofKeyword ++ words)) true need name
      (fun tree => around
        ⟨.qualifiedType, spot, .qualifiers qualifiers, [⟨.pointerType, inside, .none, [tree]⟩]⟩) := by
  have notEmpty := Qualifiers.keywords_ne_nil someQualifiers
  have begins := beginsOperand_wordsText notEmpty Qualifiers.isSpelled_keywords
  refine part.starred (qualifiers.text ++ if inner.isEmpty then "" else " ").toList
    qualifiers.keywords ?_ qualifiers.foldlM_keywords ?_ ?_ fun _ => .qualifiedPointer someQualifiers
  · simp
  · intro next ends
    rw [qualifiers.text_eq]
    by_cases isEmpty : inner = ""
    · obtain rfl := isEmpty
      obtain rfl := part.empty.mp rfl
      simpa using ScansAs.keywords notEmpty Qualifiers.isSpelled_keywords ends.word
    · have blank : EndsWord (' ' :: inner.toList ++ next) := .cons _ (by decide)
      have scans := (ScansAs.keywords notEmpty Qualifiers.isSpelled_keywords blank).append
        (.space (part.scans next ends))
      simpa [isEmpty] using scans
  · intro next _
    rw [qualifiers.text_eq]
    rw [String.toList_append, List.append_assoc, List.append_assoc]
    exact .operand (by decide) (by decide) (begins.append _)

/-! ### Parentheses and steps behind -/

theorem closed (part : ReadsPart form inner words isPointer need name around) :
    ∃ closedWords, ReadsPart form (Spelling.closed inner) closedWords false
      (closedDepth isPointer need) name around := by
  cases isPointer with
  | false =>
    have isClosed : Spelling.closed inner = inner := by
      simp [Spelling.closed, part.starts]
    rw [isClosed]
    exact ⟨words, part⟩
  -- A pointer binds less than what is written behind, so it is put in parentheses.
  | true =>
    have isClosed : Spelling.closed inner = "(" ++ inner ++ ")" := by
      simp [Spelling.closed, part.starts, Spelling.parenthesized]
    rw [isClosed]
    refine ⟨.openParen :: (words ++ [.closeParen]), ?_⟩
    constructor
    · simp
    · simp
    · simp [Word.openParen, Word.punctuator, TokenKind.endsDeclarator]
    · intro next _
      exact .operand (by decide) (by decide) (by simpa using beginsOperand_paren _)
    · intro next _
      have closes : EndsPart (')' :: next) := .cons next (by decide)
      have scans := ScansAs.openParen ((part.scans _ closes).append (.closeParen (.nil next)))
      simpa using scans
    · intro stream place has _
      exact .other (by rw [Token.kind_of_word has.1]; rfl)
    · intro context state isC plain has _
      rw [TokenStream.hasWordsAt_cons, TokenStream.hasWordsAt_append,
        TokenStream.hasWordsAt_cons] at has
      obtain ⟨opens, hasInner, closes, _⟩ := has
      have closes := Token.kind_of_word closes
      have inside := part.reads isC (plain.movedTo (state.position + 1)) hasInner
        (.ends (by rw [ParseState.position_movedTo, closes]; rfl))
      have length : state.position + (Word.openParen :: (words ++ [.closeParen])).length =
          state.position + 1 + words.length + 1 := by
        simp
        omega
      rw [length]
      exact .closed plain.calm (Token.kind_of_word opens) inside closes

theorem step {text : String} {stepWords : List Word} {more : Nat} {step : Node → Node}
    (part : ReadsPart form inner words false need name around)
    (behind : ReadsStep text stepWords more step) :
    ReadsPart form (inner ++ text) (words ++ stepWords) false (max need more) name
      (fun tree => around (step tree)) where
  starts := by
    have noStar : inner.toList.head? ≠ some '*' := by simp [part.starts]
    have textStar : text.toList.head? ≠ some '*' := by
      intro isStar
      have inList := behind.ends [] '*' (by simpa using isStar)
      revert inList
      decide
    cases characters : inner.toList with
    | nil => simp [characters, textStar]
    | cons first rest =>
      rw [characters] at noStar
      simpa [characters] using noStar
  empty := by simp [behind.notEmpty]
  begins := by
    cases words with
    | nil => exact behind.begins
    | cons first rest => exact part.begins
  notAssigned next _ := by
    rw [String.toList_append, List.append_assoc]
    exact part.notAssigned _ (behind.ends next)
  scans next _ := by
    rw [String.toList_append]
    exact (part.scans _ (behind.ends next)).append (behind.scans next)
  stands has _ := by
    rw [TokenStream.hasWordsAt_append] at has
    exact part.stands has.1 (behind.follows has.2).1
  reads {context state} isC plain has _ := by
    rw [TokenStream.hasWordsAt_append] at has
    obtain ⟨hasInner, hasStep⟩ := has
    obtain ⟨follows, notEnd⟩ := behind.follows hasStep
    have length : state.position + (words ++ stepWords).length =
        state.position + words.length + stepWords.length := by
      simp
      omega
    have forward := List.length_pos_iff.mpr behind.notEmpty.2
    rw [length]
    exact (part.reads isC plain hasInner follows).derivation
      (behind.reads isC (plain.movedTo _) hasStep) notEnd (by omega)

end ReadsPart

end CFrontEnd
