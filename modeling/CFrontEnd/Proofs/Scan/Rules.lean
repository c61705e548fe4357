import CFrontEnd.Proofs.Scan.TokenSegments

/-!
What the rules of the scanner find, in any language: each rule has its kind of segment, and what holds of
all that the rules find holds of every segment of a text.
-/

namespace CFrontEnd

namespace Segment

variable {language : Language} {atLineStart : Bool} {first : Char} {rest input : List Char}
  {kind : TokenKind} {symbol : String} {segment : Segment} {holds : Segment → Prop}

/-! ## Layout -/

theorem spliceAt?_shape (found : spliceAt? first rest = some segment) :
    segment.kind = .splice ∧ segment.problems = [] := by
  unfold spliceAt? at found
  split at found
  · rw [← Option.some.inj found]
    exact ⟨rfl, rfl⟩
  · cases found

theorem directiveAt?_shape
    (found : directiveAt? language atLineStart first rest = some segment) :
    (∃ marker, segment.kind = .directive marker) ∧ segment.problems = [] := by
  unfold directiveAt? at found
  split at found
  · rw [← Option.some.inj found]
    exact ⟨⟨_, rfl⟩, rfl⟩
  · cases found

theorem lineCommentAt?_shape
    (found : lineCommentAt? language first rest = some segment) :
    segment.kind = .lineComment ∧ segment.problems = [] := by
  simp only [lineCommentAt?] at found
  split at found
  · cases found
  · split at found
    · split at found
      · rw [← Option.some.inj found]
        exact ⟨rfl, rfl⟩
      · cases found
    · cases found

theorem blockCommentAt?_shape
    (found : blockCommentAt? language first rest = some segment) :
    ∃ closed, segment.kind = .blockComment closed ∧
      segment.problems = if closed then [] else [(0, .unterminatedComment)] := by
  simp only [blockCommentAt?] at found
  split at found
  · cases found
  · split at found
    · split at found
      · rw [← Option.some.inj found]
        exact ⟨_, rfl, rfl⟩
      · cases found
    · cases found

/-! ## Tokens -/

/-- The segment is a token, which the end of the file is not. -/
def IsToken (segment : Segment) : Prop :=
  ∃ kind value, segment.kind = .token kind value ∧ kind ≠ .endOfFile

theorem numberAt?_kind (found : numberAt? language first rest = some segment) :
    ∃ kind value, segment.kind = .token (.literal kind) value ∧
      (kind = .integer ∨ kind = .floating) := by
  unfold numberAt? at found
  split at found
  · simp only at found
    split at found
    · rw [← Option.some.inj found]
      refine ⟨_, _, rfl, ?_⟩
      split
      · exact .inr rfl
      · exact .inl rfl
    · cases found
  · cases found

theorem numberAt?_isToken (found : numberAt? language first rest = some segment) :
    segment.IsToken := by
  obtain ⟨kind, value, isNumber, _⟩ := numberAt?_kind found
  exact ⟨.literal kind, value, isNumber, by simp⟩

theorem quotedAt?_isToken {encoding : Encoding} {before : Nat} {input : List Char}
    (found : quotedAt? language encoding before input = some segment) : segment.IsToken := by
  cases input with
  | nil => cases found
  | cons quote rest =>
    obtain ⟨_, ⟨kind, value, isLiteral⟩, _⟩ := quotedAt?_shape found
    exact ⟨.literal kind, value, isLiteral, by simp⟩

theorem symbolKind?_begins (found : symbolKind? language input = some (kind, symbol)) :
    beginsWith symbol input = true ∧
      ((∃ operator, kind = .operator operator) ∨ ∃ punctuator, kind = .punctuator punctuator) := by
  cases symbolKind?_rule found with
  | operator matched => exact ⟨by simpa using List.find?_some matched, .inl ⟨_, rfl⟩⟩
  | punctuator matched => exact ⟨by simpa using List.find?_some matched, .inr ⟨_, rfl⟩⟩

/-- The rules for tokens: numbers, literals whose quotes may stand behind a word, words and symbols. -/
inductive TokenRule (language : Language) (first : Char) (rest : List Char) (segment : Segment) : Prop
  | number (found : numberAt? language first rest = some segment)
  | quoted (encoding : Encoding) (word input : List Char) (whole : word ++ input = first :: rest)
      (found : quotedAt? language encoding word.length input = some segment)
  | name (kind : TokenKind) (isName : kind = .identifier ∨ ∃ keyword, kind = .keyword keyword)
      (isToken : segment.kind = .token kind none)
      (isWord : (first :: rest).take segment.length =
        first :: rest.takeWhile language.classes.continuesIdentifier)
      (starts : language.classes.startsIdentifier first = true) (noProblems : segment.problems = [])
  | symbol (kind : TokenKind) (spelling : String)
      (isSymbol : symbolKind? language (first :: rest) = some (kind, spelling))
      (isToken : segment.kind = .token kind none) (noProblems : segment.problems = [])

theorem tokenAt?_rule (found : tokenAt? language first rest = some segment) :
    TokenRule language first rest segment := by
  simp only [tokenAt?, Option.orElse_eq_orElse, Option.orElse_eq_or, Option.or_eq_some_iff] at found
  rcases found with isNumber | ⟨_, isQuoted | ⟨_, isWord | ⟨_, isSymbol⟩⟩⟩
  · exact .number isNumber
  · exact .quoted .plain [] (first :: rest) rfl isQuoted
  · have isRun : rest.takeWhile language.classes.continuesIdentifier <+: rest :=
      List.takeWhile_prefix _
    -- A word is the prefix of a literal if there is a quote behind it, and a name or keyword
    -- otherwise.
    unfold wordAt? at isWord
    split at isWord
    · rename_i starts
      simp only [Option.orElse_eq_orElse, Option.orElse_eq_or] at isWord
      rcases Option.or_eq_some_iff.mp isWord with isLiteral | ⟨_, isName⟩
      · obtain ⟨encoding, _, isQuoted⟩ := Option.bind_eq_some_iff.mp isLiteral
        refine .quoted encoding _ _ ?_ isQuoted
        rw [List.length_cons, Nat.add_sub_cancel, List.cons_append,
          List.prefix_iff_eq_append.mp isRun]
      · rw [← Option.some.inj isName]
        have isWord := congrArg (first :: ·) (List.prefix_iff_eq_take.mp isRun)
        refine .name _ ?_ rfl isWord.symm starts rfl
        split
        · exact .inr ⟨_, rfl⟩
        · exact .inl rfl
    · cases isWord
  · obtain ⟨⟨kind, symbol⟩, isKind, isSegment⟩ := Option.bind_eq_some_iff.mp isSymbol
    simp only at isSegment
    split at isSegment
    · rw [← Option.some.inj isSegment]
      exact .symbol kind symbol isKind rfl rfl
    · cases isSegment

/-- A token is a number, or a literal whose quote may stand behind a word, or it has no problems. -/
theorem tokenAt?_of_rules
    (number : numberAt? language first rest = some segment → holds segment)
    (quoted : ∀ encoding word input, word ++ input = first :: rest →
      quotedAt? language encoding word.length input = some segment → holds segment)
    (plain : segment.IsToken → segment.problems = [] → holds segment)
    (found : tokenAt? language first rest = some segment) : holds segment := by
  cases tokenAt?_rule found with
  | number isNumber => exact number isNumber
  | quoted encoding word input whole isQuoted => exact quoted encoding word input whole isQuoted
  | name kind isName isToken _ _ noProblems =>
    refine plain ⟨kind, none, isToken, ?_⟩ noProblems
    rcases isName with rfl | ⟨keyword, rfl⟩ <;> simp
  | symbol kind _ isSymbol isToken noProblems =>
    refine plain ⟨kind, none, isToken, ?_⟩ noProblems
    rcases (symbolKind?_begins isSymbol).2 with ⟨operator, rfl⟩ | ⟨punctuator, rfl⟩ <;> simp

theorem tokenAt?_isToken (found : tokenAt? language first rest = some segment) :
    segment.IsToken :=
  tokenAt?_of_rules numberAt?_isToken (fun _ _ _ _ => quotedAt?_isToken)
    (fun isToken _ => isToken) found

/-! ## The first segment -/

theorem getD_or {Found : Type} {holds : Found → Prop} {candidate others : Option Found}
    {fallback : Found} (isHeld : ∀ found, candidate = some found → holds found)
    (othersHeld : holds (others.getD fallback)) : holds ((candidate.or others).getD fallback) := by
  cases candidate with
  | none => exact othersHeld
  | some found => exact isHeld found rfl

/-- What holds of every segment that a rule finds holds of the first one of a text. -/
theorem first_of_rules {holds : Segment → Prop}
    (blank : language.classes.isBlank first = true →
      holds { kind := .blank, length := 1, length_pos := Nat.one_pos })
    (splice : ∀ segment, spliceAt? first rest = some segment → holds segment)
    (directive : ∀ segment, directiveAt? language atLineStart first rest = some segment →
      holds segment)
    (lineComment : ∀ segment, lineCommentAt? language first rest = some segment → holds segment)
    (blockComment : ∀ segment, blockCommentAt? language first rest = some segment → holds segment)
    (token : ∀ segment, tokenAt? language first rest = some segment → holds segment)
    (stray : language.classes.isBlank first = false →
      holds
        { kind := .stray, length := 1, problems := [(0, .stray first)], length_pos := Nat.one_pos }) :
    holds (Segment.first language atLineStart first rest) := by
  unfold Segment.first
  split
  · rename_i isBlank
    exact blank isBlank
  · rename_i notBlank
    simp only [Option.orElse_eq_orElse, Option.orElse_eq_or]
    refine getD_or splice (getD_or directive (getD_or lineComment (getD_or blockComment ?_)))
    cases found : tokenAt? language first rest with
    | none => exact stray (by simpa using notBlank)
    | some segment => exact token segment found

/-- A segment of the kind of a token was found as one, and not as layout. -/
def ComesFromToken (language : Language) (first : Char) (rest : List Char)
    (segment : Segment) : Prop :=
  ∀ kind value, segment.kind = .token kind value → tokenAt? language first rest = some segment

theorem first_comesFromToken (atLineStart : Bool) (first : Char) (rest : List Char) :
    ComesFromToken language first rest (Segment.first language atLineStart first rest) := by
  have other {candidate : Segment} (notToken : ∀ kind value, candidate.kind ≠ .token kind value) :
      ComesFromToken language first rest candidate :=
    fun kind value isToken => absurd isToken (notToken kind value)
  refine first_of_rules (fun _ => other (by simp))
    (fun _ found => other (by simp [(spliceAt?_shape found).1])) ?_
    (fun _ found => other (by simp [(lineCommentAt?_shape found).1])) ?_
    (fun _ found _ _ _ => found) (fun _ => other (by simp))
  · intro segment found
    obtain ⟨marker, isDirective⟩ := (directiveAt?_shape found).1
    exact other (by simp [isDirective])
  · intro segment found
    obtain ⟨closed, isComment, _⟩ := blockCommentAt?_shape found
    exact other (by simp [isComment])

theorem first_notEnd (atLineStart : Bool) (first : Char) (rest : List Char) (kind : TokenKind)
    (value : Option Literal)
    (isKind : (Segment.first language atLineStart first rest).kind = .token kind value) :
    kind ≠ .endOfFile := by
  have found := first_comesFromToken atLineStart first rest kind value isKind
  obtain ⟨other, _, isOther, notEnd⟩ := tokenAt?_isToken found
  rw [isKind] at isOther
  obtain ⟨rfl, _⟩ := SegmentKind.token.inj isOther
  exact notEnd

end Segment

end CFrontEnd
