import CFrontEnd.Proofs.Scan.TokenSegments

/-!
Every segment that the scanner takes is a piece of the kind it says, and complains as that kind does.
-/

namespace CFrontEnd

def SegmentKind.pieceKind : SegmentKind → PieceKind
  | .blank => .blank
  | .splice => .splice
  | .directive _ => .directive
  | .lineComment => .lineComment
  | .blockComment true => .blockComment
  | .blockComment false => .openComment
  | .token _ _ => .token
  | .stray => .stray

namespace Piece

/-- What is wrong with a piece for being where it is. -/
def problem? (piece : Piece) : Option LexicalProblem :=
  match piece.kind, piece.text with
  | .stray, [character] => some (.stray character)
  | .openComment, _ => some .unterminatedComment
  | _, _ => none

end Piece

namespace Segment

variable {dialect : Dialect} {earlier : List Piece} {atLineStart : Bool} {first : Char}
  {rest input : List Char} {segment : Segment}

def piece (input : List Char) (segment : Segment) : Piece :=
  ⟨segment.kind.pieceKind, input.take segment.length⟩

/-- The problems of a segment that are none of a token, each with the character it is found at. -/
def layoutProblems (segment : Segment) : List (Nat × LexicalProblem) :=
  segment.problems.filter fun problem => problem.2.concernsLayout

structure Fits (dialect : Dialect) (earlier : List Piece) (input : List Char) (segment : Segment) :
    Prop where
  describes : Describes dialect earlier (input.take segment.length) (input.drop segment.length)
    segment.kind.pieceKind
  problems : segment.layoutProblems = ((segment.piece input).problem?.map fun problem =>
    (0, problem)).toList
  notEnd : ∀ kind value, segment.kind = .token kind value → kind ≠ .endOfFile

/-! ## Layout -/

theorem isBlank_iff {character : Char} :
    (cLanguage dialect).classes.isBlank character = true ↔ character ∈ cWhiteSpace := by
  constructor
  · intro blank
    change (character == ' ' || (9 ≤ character.toNat && character.toNat ≤ 13)) = true at blank
    simp only [Bool.or_eq_true, Bool.and_eq_true, beq_iff_eq, decide_eq_true_eq] at blank
    rcases blank with rfl | ⟨low, high⟩
    · decide
    · have value : character.toNat = 9 ∨ character.toNat = 10 ∨ character.toNat = 11 ∨
          character.toNat = 12 ∨ character.toNat = 13 := by omega
      rcases value with same | same | same | same | same <;>
        · rw [← Char.ofNat_toNat character, same]
          decide
  · intro blank
    simp only [cWhiteSpace, List.mem_cons, List.not_mem_nil, or_false] at blank
    rcases blank with rfl | rfl | rfl | rfl | rfl | rfl <;> rfl

theorem isLineEnding_take (ends : lineEndLength input ≠ 0) :
    IsLineEnding (input.take (lineEndLength input)) (input.drop (lineEndLength input)) := by
  unfold lineEndLength at ends ⊢
  split
  · exact .inr (.inl rfl)
  · rename_i rest notFeed
    refine .inr (.inr ⟨rfl, ?_⟩)
    intro feed
    obtain ⟨_, same⟩ := List.head?_eq_some_iff.mp feed
    exact notFeed _ (by simpa using same)
  · exact .inl rfl
  · simp at ends

theorem spliceAt?_some (found : spliceAt? first rest = some segment) :
    Fits dialect earlier (first :: rest) segment := by
  unfold spliceAt? at found
  split at found
  · rename_i isSplice
    simp only [Bool.and_eq_true, beq_iff_eq, decide_eq_true_eq] at isSplice
    obtain ⟨rfl, ends⟩ := isSplice
    rw [← Option.some.inj found]
    exact ⟨⟨_, rfl, isLineEnding_take ends⟩, rfl, by simp⟩
  · cases found

theorem spliceAt?_none (missing : spliceAt? first rest = none) :
    ¬ ['\\', '\n'] <+: first :: rest ∧ ¬ ['\\', '\r'] <+: first :: rest := by
  constructor
  · rintro ⟨later, same⟩
    obtain ⟨rfl, rfl⟩ := List.cons.inj same
    simp [spliceAt?, lineEndLength] at missing
  · rintro ⟨later, same⟩
    obtain ⟨rfl, rfl⟩ := List.cons.inj same
    cases later with
    | nil => simp [spliceAt?, lineEndLength] at missing
    | cons next later =>
      by_cases isFeed : next = '\n' <;>
        simp [spliceAt?, lineEndLength, isFeed] at missing

/-- A text is the rest of its line, and behind that a line end or nothing. -/
theorem exists_line (input : List Char) : ∃ line after, input = line ++ after ∧ InLine line ∧
    (∀ next, after.head? = some next → isLineEnd next = true) ∧
    (input.takeWhile fun character => !isLineEnd character) = line := by
  refine ⟨_, input.dropWhile fun character => !isLineEnd character,
    List.takeWhile_append_dropWhile.symm, (StartsInLine.takeWhile (by decide) (by decide) input).2,
    ?_, rfl⟩
  intro next isNext
  have stops := List.head?_dropWhile_not (fun character => !isLineEnd character) input
  rw [isNext] at stops
  simpa using stops

theorem directiveAt?_some (onTime : atLineStart = true → AtLineStart earlier (first :: rest))
    (found : directiveAt? (cLanguage dialect) atLineStart first rest = some segment) :
    Fits dialect earlier (first :: rest) segment := by
  unfold directiveAt? at found
  split at found
  · rename_i isDirective
    simp only [Bool.and_eq_true, beq_iff_eq] at isDirective
    obtain ⟨⟨_, starts⟩, rfl⟩ := isDirective
    -- A directive takes its line and the end of it, which may be that of the text.
    obtain ⟨line, after, rfl, inLine, stops, same⟩ := exists_line rest
    simp only [same, List.drop_left] at found
    rw [← Option.some.inj found]
    have texts : ('#' :: (line ++ after)).take (line.length + lineEndLength after + 1) =
        '#' :: (line ++ after.take (lineEndLength after)) := by
      rw [List.take_succ_cons, List.take_length_add_append]
    have afters : ('#' :: (line ++ after)).drop (line.length + lineEndLength after + 1) =
        after.drop (lineEndLength after) := by
      rw [List.drop_succ_cons, List.drop_length_add_append]
    refine ⟨⟨?_, line, after.take (lineEndLength after), texts, inLine, ?_⟩, rfl, by simp⟩
    · rw [List.take_append_drop]
      exact onTime starts
    · simp only [afters]
      cases after with
      | nil => exact .inr ⟨rfl, rfl⟩
      | cons next after =>
        have ends := stops next rfl
        simp only [isLineEnd, Bool.or_eq_true, beq_iff_eq] at ends
        refine .inl (isLineEnding_take ?_)
        rcases ends with rfl | rfl
        · simp [lineEndLength]
        · unfold lineEndLength
          split <;> simp_all
  · cases found

theorem directiveAt?_none (onTime : AtLineStart earlier (first :: rest) → atLineStart = true)
    (missing : directiveAt? (cLanguage dialect) atLineStart first rest = none) :
    ¬ (['#'] <+: first :: rest ∧ AtLineStart earlier (first :: rest)) := by
  rintro ⟨⟨_, same⟩, starts⟩
  obtain ⟨rfl, _⟩ := List.cons.inj same
  simp [directiveAt?, cLanguage, Language.Declaration.build, onTime starts] at missing

/-! ## Comments -/

theorem lineOpener (dialect : Dialect) :
    (cLanguage dialect).comments.line = some "//" ∧ dialect.HasLineComments ∨
      (cLanguage dialect).comments.line = none ∧ ¬ dialect.HasLineComments := by
  by_cases has : (dialect.gnu || Standard.c99 ≤ dialect.standard) = true
  · exact .inl ⟨if_pos has, by simpa [Dialect.HasLineComments] using has⟩
  · exact .inr ⟨if_neg has, by simpa [Dialect.HasLineComments] using has⟩

theorem takeLine_slashes {body line : List Char}
    (same : (body.takeWhile fun character => !isLineEnd character) = line) :
    (('/' :: '/' :: body).takeWhile fun character => !isLineEnd character) = '/' :: '/' :: line := by
  rw [List.takeWhile_cons_of_pos (by decide), List.takeWhile_cons_of_pos (by decide), same]

theorem lineCommentAt?_some (found : lineCommentAt? (cLanguage dialect) first rest = some segment) :
    Fits dialect earlier (first :: rest) segment := by
  rcases lineOpener dialect with ⟨opener, has⟩ | ⟨opener, _⟩
  · simp only [lineCommentAt?, opener] at found
    split at found
    · rename_i begins
      obtain ⟨_, body, same⟩ := beginsWith_iff.mp begins
      have same : '/' :: '/' :: body = first :: rest := same
      obtain ⟨rfl, rfl⟩ := List.cons.inj same
      obtain ⟨line, after, rfl, inLine, stops, same⟩ := exists_line body
      simp only [takeLine_slashes same, List.length_cons, Nat.zero_lt_succ, dite_true] at found
      rw [← Option.some.inj found]
      have texts : ('/' :: '/' :: (line ++ after)).take (line.length + 1 + 1) =
          '/' :: '/' :: line := by
        simp
      have afters : ('/' :: '/' :: (line ++ after)).drop (line.length + 1 + 1) = after := by
        simp
      refine ⟨⟨has, ⟨line, texts, inLine⟩, ?_⟩, rfl, by simp⟩
      simpa only [afters] using stops
    · cases found
  · simp [lineCommentAt?, opener] at found

theorem lineCommentAt?_none
    (missing : lineCommentAt? (cLanguage dialect) first rest = none) :
    ¬ (dialect.HasLineComments ∧ ['/', '/'] <+: first :: rest) := by
  rintro ⟨has, body, same⟩
  have same : '/' :: '/' :: body = first :: rest := same
  obtain ⟨rfl, rfl⟩ := List.cons.inj same
  rcases lineOpener dialect with ⟨opener, _⟩ | ⟨_, hasNot⟩
  · have begins : beginsWith "//" ('/' :: '/' :: body) = true :=
      beginsWith_iff.mpr ⟨by decide, body, rfl⟩
    have line : (('/' :: '/' :: body).takeWhile fun character => !isLineEnd character) = _ :=
      takeLine_slashes rfl
    simp only [lineCommentAt?, opener, begins, if_true, line, List.length_cons,
      Nat.zero_lt_succ, dite_true, reduceCtorEq] at missing
  · exact hasNot has

/-- A comment is closed by the first closer in it, or has none and reaches to the end. -/
theorem commentLength_spec (input : List Char) :
    (∃ body later, commentLength ['*', '/'] input = (body.length + 2, true) ∧
      input = body ++ '*' :: '/' :: later ∧ ¬ ['*', '/'] <:+: body ++ ['*']) ∨
    commentLength ['*', '/'] input = (input.length, false) ∧ ¬ ['*', '/'] <:+: input := by
  induction input with
  | nil => exact .inr ⟨rfl, by simp⟩
  | cons first rest ih =>
    by_cases closes : ['*', '/'] <+: first :: rest
    · obtain ⟨later, same⟩ := closes
      have same : '*' :: '/' :: later = first :: rest := same
      obtain ⟨rfl, rfl⟩ := List.cons.inj same
      exact .inl ⟨[], later, by simp [commentLength], rfl, by decide⟩
    · have notPrefix : (['*', '/'].isPrefixOf (first :: rest)) = false := by
        simpa [← List.isPrefixOf_iff_prefix] using closes
      rcases ih with ⟨body, later, run, rfl, noCloser⟩ | ⟨run, noCloser⟩
      · refine .inl ⟨first :: body, later, ?_, rfl, ?_⟩
        · simp only [commentLength, notPrefix, run, Bool.false_eq_true, if_false,
            List.length_cons]
        · rw [List.cons_append, List.infix_cons_iff]
          rintro (begins | inBody)
          · refine closes (begins.trans ?_)
            exact ⟨'/' :: later, by simp⟩
          · exact noCloser inBody
      · refine .inr ⟨?_, ?_⟩
        · simp [commentLength, notPrefix, run]
        · rw [List.infix_cons_iff]
          rintro (begins | inRest)
          · exact closes begins
          · exact noCloser inRest

theorem blockOpener (dialect : Dialect) :
    (cLanguage dialect).comments.block = some ("/*", "*/") :=
  rfl

theorem blockCommentAt?_some
    (found : blockCommentAt? (cLanguage dialect) first rest = some segment) :
    Fits dialect earlier (first :: rest) segment := by
  simp only [blockCommentAt?, blockOpener] at found
  split at found
  · rename_i begins
    obtain ⟨_, body, same⟩ := beginsWith_iff.mp begins
    have same : '/' :: '*' :: body = first :: rest := same
    obtain ⟨rfl, rfl⟩ := List.cons.inj same
    have dropped : ('/' :: '*' :: body).drop "/*".length = body := rfl
    have closer : "*/".toList = ['*', '/'] := rfl
    have opener : "/*".length = 2 := rfl
    rw [dropped, closer] at found
    rcases commentLength_spec body with ⟨inner, later, run, rfl, noCloser⟩ | ⟨run, noCloser⟩
    · have positive : 0 < 2 + (inner.length + 2) := by omega
      simp only [run, opener, positive, dite_true, if_true] at found
      rw [← Option.some.inj found]
      have texts : ('/' :: '*' :: (inner ++ '*' :: '/' :: later)).take (2 + (inner.length + 2)) =
          '/' :: '*' :: (inner ++ ['*', '/']) := by
        rw [Nat.add_comm, List.take_succ_cons, List.take_succ_cons, List.take_length_add_append]
        rfl
      exact ⟨⟨inner, texts, noCloser⟩, rfl, by simp⟩
    · have positive : 0 < 2 + body.length := by omega
      simp only [run, opener, positive, dite_true, Bool.false_eq_true, if_false] at found
      rw [← Option.some.inj found]
      have long : ('/' :: '*' :: body).length ≤ 2 + body.length := by
        simp only [List.length_cons]
        omega
      exact ⟨⟨List.drop_of_length_le long, body, List.take_of_length_le long, noCloser⟩, rfl, by simp⟩
  · cases found

theorem blockCommentAt?_none
    (missing : blockCommentAt? (cLanguage dialect) first rest = none) :
    ¬ ['/', '*'] <+: first :: rest := by
  intro ahead
  have begins : beginsWith "/*" (first :: rest) = true := beginsWith_iff.mpr ⟨by decide, ahead⟩
  simp [blockCommentAt?, blockOpener, begins] at missing

/-! ## All segments -/

/-- What begins no layout in the eyes of the scanner begins none. -/
theorem not_beginsLayout (onTime : AtLineStart earlier (first :: rest) → atLineStart = true)
    (notBlank : first ∉ cWhiteSpace) (noSplice : spliceAt? first rest = none)
    (noDirective : directiveAt? (cLanguage dialect) atLineStart first rest = none)
    (noLineComment : lineCommentAt? (cLanguage dialect) first rest = none)
    (noBlockComment : blockCommentAt? (cLanguage dialect) first rest = none) :
    ¬ BeginsLayout dialect earlier (first :: rest) := by
  have notSplice := spliceAt?_none noSplice
  rintro (⟨blank, isBlank, ahead⟩ | isSplice | isSplice | isDirective | isLine | isBlock)
  · obtain ⟨rfl, _⟩ := List.cons_prefix_cons.mp ahead
    exact notBlank isBlank
  · exact notSplice.1 isSplice
  · exact notSplice.2 isSplice
  · exact directiveAt?_none onTime noDirective isDirective
  · exact lineCommentAt?_none noLineComment isLine
  · exact blockCommentAt?_none noBlockComment isBlock

theorem fits_of_token (ahead : IsTokenAhead (first :: rest) segment)
    (noLayout : ¬ BeginsLayout dialect earlier (first :: rest))
    (begins : BeginsToken (first :: rest)) : Fits dialect earlier (first :: rest) segment := by
  obtain ⟨⟨kind, value, isToken, notEnd⟩, starts, problems⟩ := ahead
  refine ⟨?_, ?_, ?_⟩
  · rw [isToken]
    refine ⟨?_, ?_, ?_, starts.2⟩
    · rwa [List.take_append_drop]
    · rwa [List.take_append_drop]
    · have positive := segment.length_pos
      intro empty
      rcases List.take_eq_nil_iff.mp empty with none | none
      · omega
      · cases none
  · simp only [layoutProblems, piece, Piece.problem?, isToken, SegmentKind.pieceKind,
      Option.map_none, Option.toList_none, List.filter_eq_nil_iff]
    intro problem inList
    simp [problems problem inList]
  · intro other _ same
    rw [isToken] at same
    obtain ⟨rfl, _⟩ := SegmentKind.token.inj same
    exact notEnd

theorem first_fits (onTime : atLineStart = true ↔ AtLineStart earlier (first :: rest)) :
    Fits dialect earlier (first :: rest)
      (Segment.first (cLanguage dialect) atLineStart first rest) := by
  unfold Segment.first
  split
  · rename_i blank
    exact ⟨⟨first, isBlank_iff.mp blank, rfl⟩, rfl, by simp⟩
  · rename_i notBlank
    rw [isBlank_iff] at notBlank
    simp only [Option.orElse_eq_orElse, Option.orElse_eq_or]
    cases splice : spliceAt? first rest with
    | some segment => exact spliceAt?_some splice
    | none =>
      cases directive : directiveAt? (cLanguage dialect) atLineStart first rest with
      | some segment => exact directiveAt?_some onTime.mp directive
      | none =>
        cases lineComment : lineCommentAt? (cLanguage dialect) first rest with
        | some segment => exact lineCommentAt?_some lineComment
        | none =>
          cases blockComment : blockCommentAt? (cLanguage dialect) first rest with
          | some segment => exact blockCommentAt?_some blockComment
          | none =>
            have noLayout := not_beginsLayout onTime.mpr notBlank splice directive lineComment
              blockComment
            cases token : tokenAt? (cLanguage dialect) first rest with
            | some segment => exact fits_of_token (tokenAt?_some token) noLayout (tokenAt?_begins token)
            | none => exact ⟨⟨noLayout, tokenAt?_none token, first, rfl⟩, rfl, by simp⟩

end Segment

end CFrontEnd
