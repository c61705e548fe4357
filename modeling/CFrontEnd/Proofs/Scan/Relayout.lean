import CFrontEnd.Proofs.Scan.Chains
import CFrontEnd.Proofs.Scan.Origins

/-!
Tokens without problems can be set in another layout: each of them is found again in its own text, if
white space stands behind it.
-/

namespace CFrontEnd

/-! ## Layout between tokens -/

/-- White space, splices that end with LF, and closed comments. -/
inductive IsLayout : List Char → Prop
  | nil : IsLayout []
  | blank {character : Char} {rest : List Char} :
      character ∈ cWhiteSpace → IsLayout rest → IsLayout (character :: rest)
  | splice {rest : List Char} : IsLayout rest → IsLayout ('\\' :: '\n' :: rest)
  | comment {body rest : List Char} :
      ¬ ['*', '/'] <:+: body ++ ['*'] → IsLayout rest →
      IsLayout ('/' :: '*' :: (body ++ '*' :: '/' :: rest))

/-- Layout that begins with white space. -/
def IsSeparator (text : List Char) : Prop :=
  ∃ blank rest, text = blank :: rest ∧ blank ∈ cWhiteSpace ∧ IsLayout rest

namespace ScansAs

variable {dialect : Dialect} {next : List Char}

theorem whiteSpace {blank : Char} (isBlank : blank ∈ cWhiteSpace) (next : List Char) :
    ScansAs dialect [blank] [] next := by
  have isFirst (atLineStart : Bool) : Segment.first (cLanguage dialect) atLineStart blank next =
      { kind := .blank, length := 1 } := by
    rw [Segment.first, if_pos (Segment.isBlank_iff.mpr isBlank)]
  exact .segment isFirst rfl rfl [] fun _ _ => rfl

theorem splice (next : List Char) : ScansAs dialect ['\\', '\n'] [] next := by
  have isFirst (atLineStart : Bool) :
      Segment.first (cLanguage dialect) atLineStart '\\' (['\n'] ++ next) =
        { kind := .splice, length := 2 } :=
    rfl
  exact .segment isFirst rfl rfl [] fun _ _ => rfl

theorem blockComment {body : List Char} (noCloser : ¬ ['*', '/'] <:+: body ++ ['*'])
    (next : List Char) :
    ScansAs dialect ('/' :: '*' :: (body ++ ['*', '/'])) [] next := by
  have lengths : Segment.commentLength ['*', '/'] (body ++ '*' :: '/' :: next) =
      (body.length + 2, true) := Segment.commentLength_closed noCloser
  have notLine : beginsWith "//" ('/' :: '*' :: (body ++ '*' :: '/' :: next)) = false := by
    rw [← Bool.not_eq_true, beginsWith_iff]
    rintro ⟨_, ahead⟩
    simp [List.cons_prefix_cons] at ahead
  have isBlock : beginsWith "/*" ('/' :: '*' :: (body ++ '*' :: '/' :: next)) = true :=
    beginsWith_iff.mpr ⟨by decide, _, rfl⟩
  -- In some dialects there are no line comments at all; in the others two slashes begin one.
  have noLineComment : Segment.lineCommentAt? (cLanguage dialect) '/'
      ('*' :: (body ++ '*' :: '/' :: next)) = none := by
    rcases Segment.lineOpener dialect with ⟨opener, _⟩ | ⟨opener, _⟩
    · simp [Segment.lineCommentAt?, opener, notLine]
    · simp [Segment.lineCommentAt?, opener]
  have dropped (text : List Char) : ('/' :: '*' :: text).drop "/*".length = text := rfl
  have closer : "*/".toList = ['*', '/'] := rfl
  have isFirst (atLineStart : Bool) :
      Segment.first (cLanguage dialect) atLineStart '/' ('*' :: (body ++ ['*', '/']) ++ next) =
        { kind := .blockComment true, length := "/*".length + (body.length + 2) } := by
    have noSplice : Segment.spliceAt? '/' ('*' :: (body ++ '*' :: '/' :: next)) = none := rfl
    have noDirective : Segment.directiveAt? (cLanguage dialect) atLineStart '/'
        ('*' :: (body ++ '*' :: '/' :: next)) = none := by
      simp [Segment.directiveAt?]
    have notBlank : (cLanguage dialect).classes.isBlank '/' = false := rfl
    have joined : '*' :: (body ++ ['*', '/']) ++ next = '*' :: (body ++ '*' :: '/' :: next) := by
      simp
    have positive : 0 < "/*".length + (body.length + 2) := by omega
    simp [joined, Segment.first, notBlank, noSplice, noDirective, noLineComment,
      Segment.blockCommentAt?, Segment.blockOpener, isBlock, dropped, closer, lengths, positive]
  refine .segment isFirst ?_ rfl [] fun _ _ => rfl
  have opener : "/*".length = 2 := rfl
  simp only [opener, List.length_cons, List.length_append, List.length_nil]
  omega

theorem layout {text : List Char} (isLayout : IsLayout text) (next : List Char) :
    ScansAs dialect text [] next := by
  induction isLayout with
  | nil => exact .nil next
  | blank isBlank _ ih => exact (whiteSpace isBlank _).append ih
  | splice _ ih => exact (splice _).append ih
  | @comment body rest noCloser _ ih =>
    have whole := (blockComment noCloser _).append ih
    simpa using whole

end ScansAs

/-! ## Tokens on their own -/

/-- In front of white space the word's text is scanned as the word. -/
def Word.StandsAlone (dialect : Dialect) (word : Word) : Prop :=
  ∀ blank tail, blank ∈ cWhiteSpace →
    ScansAs dialect word.lexeme.toList [word] (blank :: tail)

namespace Segment

variable {dialect : Dialect} {first : Char} {rest : List Char} {segment : Segment}
  {atLineStart : Bool}

theorem tokenAt?_length_le (found : tokenAt? (cLanguage dialect) first rest = some segment) :
    segment.length ≤ rest.length + 1 := by
  by_contra long
  have isBlank : '\n' ∈ cWhiteSpace := by decide
  have moved : tokenAt? (cLanguage dialect) first (cutAt '\n' [] segment.length rest) =
      some segment := tokenAt?_cutAt isBlank found (by omega) (.inl rfl)
  rw [cutAt, List.take_of_length_le (by omega)] at moved
  exact long (tokenAt?_of_line [] moved).1

/-- What begins a token begins neither a splice nor a directive, and is no white space. -/
theorem apart_of_begins (begins : BeginsToken (first :: rest)) :
    first ∉ cWhiteSpace ∧ first ≠ '\\' ∧ first ≠ '#' := by
  have decided : ('\\' :: '#' :: cWhiteSpace).all (fun other => !(other.isDigit || other == '"' ||
      other == '\'' || other == '_' || other.isAlpha)) = true := by
    decide
  have apart (inClass : (first.isDigit || first == '"' || first == '\'' || first == '_' ||
      first.isAlpha) = true) : first ∉ '\\' :: '#' :: cWhiteSpace := by
    intro inList
    have notInClass := List.all_eq_true.mp decided first inList
    rw [inClass] at notInClass
    cases notInClass
  have split (apart : first ∉ '\\' :: '#' :: cWhiteSpace) :
      first ∉ cWhiteSpace ∧ first ≠ '\\' ∧ first ≠ '#' := by
    simp only [List.mem_cons, not_or] at apart
    exact ⟨fun isBlank => by simp_all [cWhiteSpace], apart.1, apart.2.1⟩
  rcases begins with isDigit | rfl | rfl | rfl | isLetter | ⟨symbol, isSymbol, ahead⟩
  · exact split (apart (by simp [isDigit]))
  · exact split (apart (by simp))
  · exact split (apart (by simp))
  · exact split (apart (by simp))
  · exact split (apart (by simp [isLetter]))
  · have positive := cSymbols_length_pos symbol isSymbol
    rw [← String.length_toList] at positive
    obtain ⟨head, tail, characters⟩ := List.exists_cons_of_length_pos positive
    rw [characters, List.cons_prefix_cons] at ahead
    obtain ⟨rfl, _⟩ := ahead
    obtain ⟨notBlank, notSplice, notHash, _⟩ := head_cSymbols symbol isSymbol head
      (by rw [characters]; rfl)
    exact ⟨notBlank, notSplice, notHash⟩

/-- Of the tokens that begin with a slash, one ends there and one goes on with an equals sign. -/
theorem slash_token (found : tokenAt? (cLanguage dialect) '/' rest = some segment) :
    segment.length = 1 ∨ segment.length = 2 ∧ rest.head? = some '=' := by
  have noNumber : numberAt? (cLanguage dialect) '/' rest = none :=
    numberAt?_eq_none (by decide) (by simp)
  have noQuoted : quotedAt? (cLanguage dialect) .plain 0 ('/' :: rest) = none :=
    quotedAt?_eq_none (by rintro _ ⟨⟩; decide)
  have noWord : wordAt? (cLanguage dialect) '/' rest = none := rfl
  simp only [tokenAt?, noNumber, noQuoted, noWord, Option.orElse_eq_orElse, Option.orElse_eq_or,
    Option.none_or] at found
  obtain ⟨⟨kind, symbol⟩, known, isSegment⟩ := Option.bind_eq_some_iff.mp found
  obtain ⟨_, isSymbol, ahead⟩ := symbolKind?_some known
  have lengthSame : segment.length = symbol.length := by
    simp only at isSegment
    split at isSegment
    · rw [← Option.some.inj isSegment]
    · cases isSegment
  have isSlash : symbol.toList.head? = some '/' := by
    have positive := cSymbols_length_pos symbol isSymbol
    rw [← String.length_toList] at positive
    obtain ⟨head, tail, characters⟩ := List.exists_cons_of_length_pos positive
    rw [characters, List.cons_prefix_cons] at ahead
    rw [characters, ahead.1]
    rfl
  -- The two symbols are the slash and the slash with an equals sign.
  rcases slash_cSymbols symbol isSymbol isSlash with rfl | rfl
  · exact .inl lengthSame
  · refine .inr ⟨lengthSame, ?_⟩
    have ahead : ['/', '='] <+: '/' :: rest := ahead
    obtain ⟨later, same⟩ := (List.cons_prefix_cons.mp ahead).2
    rw [← same]
    rfl

/-- A token without problems is found on its own in front of white space. -/
theorem standsAlone_of_tokenAt? {kind : TokenKind} {value : Option Literal}
    (found : tokenAt? (cLanguage dialect) first rest = some segment)
    (isToken : segment.kind = .token kind value) (noProblems : segment.problems = []) :
    Word.StandsAlone dialect
      ⟨kind, String.ofList ((first :: rest).take segment.length), value⟩ := by
  intro blank tail isBlank
  have short := tokenAt?_length_le found
  have positive := segment.length_pos
  obtain ⟨count, length⟩ : ∃ count, segment.length = count + 1 := ⟨segment.length - 1, by omega⟩
  have moved : tokenAt? (cLanguage dialect) first (rest.take count ++ blank :: tail) = some segment :=
    tokenAt?_cutAt isBlank found (by omega) (.inr noProblems)
  obtain ⟨notBlank, notSplice, notHash⟩ := apart_of_begins (tokenAt?_begins moved)
  -- Cut off from what was behind it, a slash could only be read as the beginning of a comment.
  have notComment (second : Char) (opens : second = '/' ∨ second = '*') :
      ¬ ['/', second] <+: first :: (rest.take count ++ blank :: tail) := by
    intro ahead
    obtain ⟨rfl, inRest⟩ := List.cons_prefix_cons.mp ahead
    rcases slash_token found with isSlash | ⟨isPair, isEquals⟩
    · obtain rfl : count = 0 := by omega
      obtain ⟨rfl, _⟩ := List.cons_prefix_cons.mp inRest
      rcases opens with rfl | rfl <;> exact absurd isBlank (by decide)
    · obtain rfl : count = 1 := by omega
      obtain ⟨later, rfl⟩ := List.head?_eq_some_iff.mp isEquals
      obtain ⟨rfl, _⟩ := List.cons_prefix_cons.mp inRest
      simp at opens
  have lexeme : (first :: rest).take segment.length = first :: rest.take count := by
    rw [length, List.take_succ_cons]
  rw [lexeme, String.toList_ofList]
  have whole : segment.length = (first :: rest.take count).length := by
    rw [List.length_cons, List.length_take_of_le (by omega), length]
  exact .token (fun atLineStart => first_of_tokenAt? atLineStart notBlank notSplice notHash
    (notComment '/' (.inl rfl)) (notComment '*' (.inr rfl)) moved) whole noProblems isToken

end Segment

/-- Every token of a text without problems stands alone. -/
theorem Scanner.standsAlone_findings {dialect : Dialect} {scanner : Scanner}
    (clean : (scanner.findings (cLanguage dialect)).problems = []) :
    ∀ token ∈ (scanner.findings (cLanguage dialect)).tokens, token.word.StandsAlone dialect := by
  intro token inFindings
  obtain ⟨first, rest, segment, isFoundIn, isClean⟩ := exists_segment inFindings
  have word : token.word =
      ⟨token.kind, String.ofList ((first :: rest).take segment.length), token.value⟩ :=
    Token.word_eq_mk.mpr ⟨rfl, isFoundIn.lexeme, rfl⟩
  rw [word]
  exact Segment.standsAlone_of_tokenAt? isFoundIn.found isFoundIn.isToken (isClean clean)

/-! ## Another layout -/

/-- The texts of the tokens, each with its separator behind it. -/
def relaid (tokens : List Token) (separators : List (List Char)) : List Char :=
  (tokens.zipWith (fun token separator => token.lexeme.toList ++ separator) separators).flatten

theorem ScansAs.relaid {dialect : Dialect} {tokens : List Token} {separators : List (List Char)}
    (asMany : separators.length = tokens.length)
    (areSeparators : ∀ separator ∈ separators, IsSeparator separator)
    (standAlone : ∀ token ∈ tokens, token.word.StandsAlone dialect) :
    ScansAs dialect (CFrontEnd.relaid tokens separators) (tokens.map Token.word) [] := by
  induction tokens generalizing separators with
  | nil =>
    rw [List.length_nil, List.length_eq_zero_iff] at asMany
    subst asMany
    exact .nil []
  | cons token tokens ih =>
    cases separators with
    | nil => cases asMany
    | cons separator separators =>
      obtain ⟨blank, layout, rfl, isBlank, isLayout⟩ := areSeparators separator (by simp)
      have first : ScansAs dialect token.lexeme.toList [token.word]
          ((blank :: layout) ++ CFrontEnd.relaid tokens separators) :=
        standAlone token (by simp) blank (layout ++ CFrontEnd.relaid tokens separators) isBlank
      have between : ScansAs dialect (blank :: layout) [] (CFrontEnd.relaid tokens separators) :=
        .layout (.blank isBlank isLayout) _
      have others := ih (by simpa using asMany)
        (fun other inRest => areSeparators other (by simp [inRest]))
        (fun other inRest => standAlone other (by simp [inRest]))
      have closed : ScansAs dialect ((blank :: layout) ++ CFrontEnd.relaid tokens separators)
          (tokens.map Token.word) [] :=
        .append (by rwa [List.append_nil]) others
      have whole : ScansAs dialect
          (token.lexeme.toList ++ ((blank :: layout) ++ CFrontEnd.relaid tokens separators))
          ([token.word] ++ tokens.map Token.word) [] :=
        .append (by rwa [List.append_nil]) closed
      simpa [CFrontEnd.relaid] using whole

/-- The tokens of a text without problems are found again in any other layout that keeps white space
behind each of them. -/
theorem tokenize_relaid (dialect : Dialect) (buffer : SourceBuffer) (stream : TokenStream)
    (clean : tokenize (cLanguage dialect) buffer .empty = (stream, .empty))
    (separators : List (List Char)) (asMany : separators.length = stream.body.size)
    (areSeparators : ∀ separator ∈ separators, IsSeparator separator) (name : String)
    (diagnostics : Diagnostics) :
    ∃ other, tokenize (cLanguage dialect)
        ⟨name, String.ofList (relaid stream.body.toList separators)⟩ diagnostics =
          (other, diagnostics) ∧
      other.body.toList.map Token.word = stream.body.toList.map Token.word := by
  rw [tokenize, Scanner.drain_findings] at clean
  obtain ⟨isStream, noProblems⟩ := Prod.mk.inj clean
  have ownClean : ((Scanner.ofBuffer buffer .empty).findings (cLanguage dialect)).problems = [] := by
    simpa [Scanner.ofBuffer, Diagnostics.empty] using noProblems
  have standAlone := Scanner.standsAlone_findings ownClean
  have sameTokens : stream.body.toList =
      ((Scanner.ofBuffer buffer .empty).findings (cLanguage dialect)).tokens := by
    rw [← isStream]
    simp
  rw [← sameTokens] at standAlone
  have scans := ScansAs.relaid (by simpa using asMany) areSeparators standAlone
  refine ScansAs.tokenize ?_ name diagnostics
  rwa [String.toList_ofList]

theorem tokenize_relaid_parentheses :
    let separators := [" \\\n".toList, "\n/*)*/".toList]
    ∃ stream, tokenize (cLanguage {}) ⟨"a.c", "()"⟩ .empty = (stream, .empty) ∧
      separators.length = stream.body.size ∧
      (∀ separator ∈ separators, IsSeparator separator) ∧
      ∃ other, tokenize (cLanguage {})
          ⟨"b.c", String.ofList (relaid stream.body.toList separators)⟩ .empty = (other, .empty) ∧
        other.body.toList.map Token.word = stream.body.toList.map Token.word := by
  intro separators
  have scans : ScansAs {} "()".toList [Word.openParen, Word.closeParen] [] :=
    .openParen (.closeParen (.nil []))
  obtain ⟨stream, clean, isWords⟩ := scans.tokenize "a.c" .empty
  have asMany : separators.length = stream.body.size := by
    have sizes := congrArg List.length isWords
    rw [List.length_map, Array.length_toList] at sizes
    exact sizes.symm
  have areSeparators : ∀ separator ∈ separators, IsSeparator separator := by
    intro separator isOne
    simp only [separators, List.mem_cons, List.not_mem_nil, or_false] at isOne
    rcases isOne with rfl | rfl
    · exact ⟨' ', ['\\', '\n'], rfl, by decide, .splice .nil⟩
    · have comment : IsLayout ('/' :: '*' :: ([')'] ++ '*' :: '/' :: [])) :=
        .comment (by decide) .nil
      exact ⟨'\n', _, rfl, by decide, comment⟩
  exact ⟨stream, clean, asMany, areSeparators,
    tokenize_relaid {} ⟨"a.c", "()"⟩ stream clean separators asMany areSeparators "b.c" .empty⟩

end CFrontEnd
