import CFrontEnd.Proofs.Scan.Locality
import CFrontEnd.Proofs.Scan.Rules

/-!
A text that ends with LF is divided into the same segments whatever text is put behind it, unless a
comment is open at its end.
-/

namespace CFrontEnd

def EndsWithLineFeed (text : List Char) : Prop := text.getLast? = some '\n'

namespace EndsWithLineFeed

variable {text rest : List Char} {first : Char}

theorem tail (ends : EndsWithLineFeed (first :: rest)) (inLine : first ≠ '\n') :
    EndsWithLineFeed rest := by
  cases rest with
  | nil => exact absurd (Option.some.inj ends) inLine
  | cons second rest => exact ends

theorem drop {count : Nat} (ends : EndsWithLineFeed text) (short : count < text.length) :
    EndsWithLineFeed (text.drop count) := by
  rw [EndsWithLineFeed, List.getLast?_drop, if_neg (by omega)]
  exact ends

theorem ne_nil (ends : EndsWithLineFeed text) : text ≠ [] := by
  rintro rfl
  cases ends

theorem exists_line (ends : EndsWithLineFeed text) :
    ∃ line more, text = line ++ '\n' :: more :=
  List.append_of_mem (List.mem_of_getLast? ends)

end EndsWithLineFeed

namespace Segment

variable {dialect : Dialect} {first : Char} {rest later line tail : List Char}
  {atLineStart : Bool} {segment : Segment}

/-! ## Tokens -/

/-- A token ends before the line feed, so that what stands behind the line feed does not matter. -/
theorem tokenAt?_of_line (other : List Char)
    (found : tokenAt? (cLanguage dialect) first (line ++ '\n' :: tail) = some segment) :
    segment.length ≤ line.length + 1 ∧
      tokenAt? (cLanguage dialect) first (line ++ '\n' :: other) = some segment := by
  have starts := (tokenAt?_some found).starts
  have short : segment.length ≤ line.length + 1 := by
    by_contra long
    have inToken : '\n' ∈ (first :: (line ++ '\n' :: tail)).take segment.length := by
      refine List.mem_of_getElem? (i := line.length + 1) ?_
      rw [List.getElem?_take_of_lt (by omega)]
      simp
    exact absurd (starts.2 '\n' inToken) (by decide)
  have isBlank : '\n' ∈ cWhiteSpace := by decide
  have moved : tokenAt? (cLanguage dialect) first
      (cutAt '\n' other line.length (line ++ '\n' :: tail)) = some segment :=
    tokenAt?_cutAt isBlank found short (.inl rfl)
  rw [cutAt_append] at moved
  exact ⟨short, moved⟩

theorem tokenAt?_append (ends : EndsWithLineFeed rest) :
    tokenAt? (cLanguage dialect) first (rest ++ later) =
      tokenAt? (cLanguage dialect) first rest := by
  obtain ⟨line, more, rfl⟩ := ends.exists_line
  rw [List.append_assoc, List.cons_append]
  cases before : tokenAt? (cLanguage dialect) first (line ++ '\n' :: more) with
  | some segment => exact (tokenAt?_of_line _ before).2
  | none =>
    cases after : tokenAt? (cLanguage dialect) first (line ++ '\n' :: (more ++ later)) with
    | none => rfl
    | some segment =>
      rw [(tokenAt?_of_line more after).2] at before
      cases before

/-! ## Layout -/

theorem lineEndLength_append (ends : EndsWithLineFeed rest) :
    lineEndLength (rest ++ later) = lineEndLength rest := by
  cases rest with
  | nil => cases ends
  | cons first rest =>
    cases rest with
    | nil =>
      obtain rfl := Option.some.inj ends
      rfl
    | cons second rest =>
      by_cases isReturn : first = '\r'
      · by_cases isFeed : second = '\n' <;> simp [lineEndLength, isReturn, isFeed]
      · by_cases isFeed : first = '\n' <;> simp [lineEndLength, isReturn, isFeed]

theorem lineEndLength_le (input : List Char) : lineEndLength input ≤ input.length := by
  unfold lineEndLength
  split <;> simp

/-- The line at the beginning of a text ends where it did. -/
theorem takeLine_append (later : List Char) (ends : EndsWithLineFeed rest) :
    ((rest ++ later).takeWhile fun character => !isLineEnd character) =
      rest.takeWhile fun character => !isLineEnd character := by
  rw [List.takeWhile_append, if_neg]
  intro whole
  have same := (List.takeWhile_prefix (fun character => !isLineEnd character)
    (l := rest)).eq_of_length whole
  have inLine := List.mem_of_getLast? ends
  rw [← same] at inLine
  exact absurd (List.all_eq_true.mp List.all_takeWhile '\n' inLine) (by decide)

theorem takeLine_length_lt (ends : EndsWithLineFeed rest) :
    (rest.takeWhile fun character => !isLineEnd character).length < rest.length := by
  have isPrefix := List.takeWhile_prefix (fun character => !isLineEnd character) (l := rest)
  refine Nat.lt_of_le_of_ne isPrefix.length_le fun whole => ?_
  have inLine := List.mem_of_getLast? ends
  rw [← isPrefix.eq_of_length whole] at inLine
  exact absurd (List.all_eq_true.mp List.all_takeWhile '\n' inLine) (by decide)

theorem spliceAt?_append (ends : EndsWithLineFeed (first :: rest)) :
    spliceAt? first (rest ++ later) = spliceAt? first rest := by
  by_cases isSplice : first = '\\'
  · subst isSplice
    simp only [spliceAt?, lineEndLength_append (ends.tail (by decide))]
  · simp [spliceAt?, isSplice]

theorem directiveAt?_append (ends : EndsWithLineFeed (first :: rest)) :
    directiveAt? (cLanguage dialect) atLineStart first (rest ++ later) =
      directiveAt? (cLanguage dialect) atLineStart first rest := by
  by_cases isHash : first = '#'
  · subst isHash
    have restEnds := ends.tail (by decide)
    have short := takeLine_length_lt restEnds
    simp only [directiveAt?, takeLine_append later restEnds,
      List.drop_append_of_le_length (Nat.le_of_lt short),
      lineEndLength_append (restEnds.drop short)]
  · simp [directiveAt?, isHash]

theorem beginsWith_append {opener : String} (later : List Char)
    (ends : EndsWithLineFeed (first :: rest))
    (isPair : ∃ second, opener.toList = ['/', second] ∧ second ≠ '\n') :
    beginsWith opener (first :: (rest ++ later)) = beginsWith opener (first :: rest) := by
  obtain ⟨second, characters, notFeed⟩ := isPair
  rw [Bool.eq_iff_iff, beginsWith_iff, beginsWith_iff, characters]
  refine and_congr_right fun _ => ?_
  by_cases isSlash : first = '/'
  · subst isSlash
    cases rest with
    | nil => cases ends
    | cons third rest => simp [List.cons_prefix_cons]
  · simp [List.cons_prefix_cons, Ne.symm isSlash]

theorem lineCommentAt?_append (ends : EndsWithLineFeed (first :: rest)) :
    lineCommentAt? (cLanguage dialect) first (rest ++ later) =
      lineCommentAt? (cLanguage dialect) first rest := by
  have isPair : ∃ second, "//".toList = ['/', second] ∧ second ≠ '\n' := ⟨'/', rfl, by decide⟩
  have begins := beginsWith_append later ends isPair
  have line := takeLine_append later ends
  rw [List.cons_append] at line
  rcases lineOpener dialect with ⟨opener, _⟩ | ⟨opener, _⟩
  · simp only [lineCommentAt?, opener, begins, line]
  · simp only [lineCommentAt?, opener]

/-- The first closer is where a comment ends. -/
theorem commentLength_closed {body : List Char} (noCloser : ¬ ['*', '/'] <:+: body ++ ['*']) :
    commentLength ['*', '/'] (body ++ '*' :: '/' :: later) = (body.length + 2, true) := by
  induction body with
  | nil => simp [commentLength]
  | cons first body ih =>
    rw [List.cons_append, List.infix_cons_iff, not_or] at noCloser
    obtain ⟨notFirst, noCloser⟩ := noCloser
    have notAhead : ['*', '/'].isPrefixOf (first :: (body ++ '*' :: '/' :: later)) = false := by
      rw [← Bool.not_eq_true, List.isPrefixOf_iff_prefix]
      cases body with
      | nil => simp [List.cons_prefix_cons]
      | cons second body => simpa [List.cons_prefix_cons] using notFirst
    rw [List.cons_append, commentLength, notAhead, ih noCloser]
    rfl

theorem blockCommentAt?_append (ends : EndsWithLineFeed (first :: rest))
    (closed : ∀ segment, blockCommentAt? (cLanguage dialect) first rest = some segment →
      segment.kind ≠ .blockComment false) :
    blockCommentAt? (cLanguage dialect) first (rest ++ later) =
      blockCommentAt? (cLanguage dialect) first rest := by
  have isPair : ∃ second, "/*".toList = ['/', second] ∧ second ≠ '\n' := ⟨'*', rfl, by decide⟩
  have begins := beginsWith_append later ends isPair
  simp only [blockCommentAt?, blockOpener, begins] at closed ⊢
  split
  · rename_i isComment
    obtain ⟨_, body, same⟩ := beginsWith_iff.mp isComment
    have same : '/' :: '*' :: body = first :: rest := same
    obtain ⟨rfl, rfl⟩ := List.cons.inj same
    have lengths : commentLength ['*', '/'] (body ++ later) = commentLength ['*', '/'] body := by
      rcases commentLength_spec body with ⟨inner, after, run, rfl, noCloser⟩ | ⟨run, _⟩
      · rw [run, List.append_assoc]
        exact commentLength_closed noCloser
      · -- Here the comment would be open.
        have dropped : ('/' :: '*' :: body).drop "/*".length = body := rfl
        have closer : "*/".toList = ['*', '/'] := rfl
        have positive : 0 < "/*".length + body.length := by
          have opener : "/*".length = 2 := rfl
          omega
        simp only [isComment, if_true, dropped, closer, run, positive, dite_true] at closed
        exact absurd rfl (closed _ rfl)
    have dropped (body : List Char) : ('/' :: '*' :: body).drop "/*".length = body := rfl
    have closer : "*/".toList = ['*', '/'] := rfl
    simp only [List.cons_append, dropped, closer, lengths]
  · rfl

/-- Unless a comment is open at the end of a text, its first segment does not depend on what stands
behind its last line. -/
theorem first_append (ends : EndsWithLineFeed (first :: rest))
    (closed : (Segment.first (cLanguage dialect) atLineStart first rest).kind ≠
      .blockComment false) :
    Segment.first (cLanguage dialect) atLineStart first (rest ++ later) =
      Segment.first (cLanguage dialect) atLineStart first rest := by
  unfold Segment.first at closed ⊢
  split
  · rfl
  · rename_i notBlank
    have inLine : first ≠ '\n' := by
      rintro rfl
      exact notBlank rfl
    rw [if_neg notBlank] at closed
    simp only [Option.orElse_eq_orElse, Option.orElse_eq_or, spliceAt?_append ends,
      directiveAt?_append ends, lineCommentAt?_append ends, tokenAt?_append (ends.tail inLine)]
      at closed ⊢
    cases splice : spliceAt? first rest with
    | some segment => rfl
    | none =>
      cases directive : directiveAt? (cLanguage dialect) atLineStart first rest with
      | some segment => rfl
      | none =>
        cases lineComment : lineCommentAt? (cLanguage dialect) first rest with
        | some segment => rfl
        | none =>
          rw [blockCommentAt?_append ends]
          intro segment isComment
          simpa [splice, directive, lineComment, isComment] using closed

theorem lineCommentAt?_length_le
    (found : lineCommentAt? (cLanguage dialect) first rest = some segment) :
    segment.length ≤ rest.length + 1 := by
  have line := (List.takeWhile_prefix (fun character => !isLineEnd character)
    (l := first :: rest)).length_le
  simp only [lineCommentAt?] at found
  split at found
  · cases found
  · split at found
    · split at found
      · rw [← Option.some.inj found]
        exact line
      · cases found
    · cases found

theorem blockCommentAt?_length_le
    (found : blockCommentAt? (cLanguage dialect) first rest = some segment) :
    segment.length ≤ rest.length + 1 := by
  have opener : "/*".length = 2 := rfl
  have closer : "*/".toList = ['*', '/'] := rfl
  simp only [blockCommentAt?, blockOpener] at found
  split at found
  · rename_i isComment
    obtain ⟨_, body, same⟩ := beginsWith_iff.mp isComment
    have same : '/' :: '*' :: body = first :: rest := same
    obtain ⟨rfl, rfl⟩ := List.cons.inj same
    have dropped : ('/' :: '*' :: body).drop "/*".length = body := rfl
    have inBody : (commentLength ['*', '/'] body).1 ≤ body.length := by
      rcases commentLength_spec body with ⟨inner, after, run, rfl, _⟩ | ⟨run, _⟩
      · rw [run, List.length_append, List.length_cons, List.length_cons]
        omega
      · rw [run]
    rw [dropped, closer] at found
    split at found
    · rw [← Option.some.inj found, List.length_cons]
      simp only [opener]
      omega
    · cases found
  · cases found

theorem spliceAt?_length_le (found : spliceAt? first rest = some segment) :
    segment.length ≤ rest.length + 1 := by
  unfold spliceAt? at found
  split at found
  · rw [← Option.some.inj found]
    exact Nat.add_le_add_right (lineEndLength_le rest) 1
  · cases found

theorem directiveAt?_length_le
    (found : directiveAt? (cLanguage dialect) atLineStart first rest = some segment) :
    segment.length ≤ rest.length + 1 := by
  have line := (List.takeWhile_prefix (fun character => !isLineEnd character)
    (l := rest)).length_le
  have ending := lineEndLength_le (rest.drop
    (rest.takeWhile fun character => !isLineEnd character).length)
  rw [List.length_drop] at ending
  unfold directiveAt? at found
  split at found
  · rw [← Option.some.inj found]
    simp only
    omega
  · cases found

theorem first_length_le (ends : EndsWithLineFeed (first :: rest)) :
    (Segment.first (cLanguage dialect) atLineStart first rest).length ≤ rest.length + 1 := by
  by_cases blank : (cLanguage dialect).classes.isBlank first = true
  · simp [Segment.first, blank]
  have inLine : first ≠ '\n' := by
    rintro rfl
    exact blank rfl
  refine first_of_rules ?_ (fun _ => spliceAt?_length_le) (fun _ => directiveAt?_length_le)
    (fun _ => lineCommentAt?_length_le) (fun _ => blockCommentAt?_length_le) ?_ ?_
  · simp
  · intro segment found
    obtain ⟨line, more, rfl⟩ := (ends.tail inLine).exists_line
    have short := (tokenAt?_of_line more found).1
    rw [List.length_append, List.length_cons]
    omega
  · simp

end Segment

/-! ## Problems -/

/-- The problems of a literal are found within it. -/
theorem QuotedReading.read_problem_lt (encoding : Encoding) (quote escape : Char) (index : Nat)
    (input : List Char) :
    ∀ problem ∈ (read encoding quote escape index input).problems,
      problem.1 < index + (read encoding quote escape index input).length := by
  fun_induction read encoding quote escape index input with
  | case1 => simp
  | case2 => simp
  | case3 => simp
  | case4 index first rest _ _ _ sequence more ih =>
    intro problem inList
    simp only [List.mem_append, Option.mem_toList, Option.map_eq_some_iff] at inList ⊢
    rcases inList with ⟨_, _, rfl⟩ | inMore
    · simp only
      omega
    · have within := ih problem inMore
      change problem.1 < index + 1 + sequence.length + more.length at within
      omega
  | case5 index first rest _ _ _ more ih =>
    intro problem inMore
    have within := ih problem inMore
    change problem.1 < index + 1 + more.length at within
    simp only
    omega

namespace Segment

variable {language : Language} {dialect : Dialect} {first : Char} {rest : List Char}
  {segment : Segment} {atLineStart : Bool}

def ProblemsWithin (segment : Segment) : Prop :=
  ∀ problem ∈ segment.problems, problem.1 < segment.length

theorem problemsWithin_of_zero (atStart : ∀ problem ∈ segment.problems, problem.1 = 0) :
    segment.ProblemsWithin := by
  intro problem inList
  rw [atStart problem inList]
  exact segment.length_pos

theorem numberAt?_problem (found : numberAt? language first rest = some segment) :
    ∀ problem ∈ segment.problems, problem.1 = 0 := by
  rw [(numberAt?_shape found).2.2]
  simp

theorem literalProblems_atStart : ∀ problem ∈ literalProblems, problem.1 = 0 := by decide

theorem quotedAt?_within {encoding : Encoding} {before : Nat} {input : List Char}
    (found : quotedAt? language encoding before input = some segment) :
    segment.ProblemsWithin := by
  cases input with
  | nil => cases found
  | cons quote rest =>
    have inReading := QuotedReading.read_problem_lt encoding quote language.marks.escape
      (before + 1) rest
    obtain ⟨_, _, length, last, problems, atStart⟩ := quotedAt?_shape found
    rw [ProblemsWithin, problems, length, List.forall_mem_append]
    constructor
    · intro problem inside
      have within := inReading problem inside
      omega
    · intro problem inLast
      rw [literalProblems_atStart problem (atStart problem inLast)]
      omega

theorem tokenAt?_within (found : tokenAt? language first rest = some segment) :
    segment.ProblemsWithin := by
  refine tokenAt?_of_rules ?_ (fun _ _ _ _ => quotedAt?_within) ?_ found
  · exact fun isNumber => problemsWithin_of_zero (numberAt?_problem isNumber)
  · exact fun _ clean => problemsWithin_of_zero (by simp [clean])

theorem first_problemsWithin (atLineStart : Bool) (first : Char) (rest : List Char) :
    (Segment.first language atLineStart first rest).ProblemsWithin := by
  have clean {candidate : Segment} (noProblems : candidate.problems = []) :
      candidate.ProblemsWithin := problemsWithin_of_zero (by simp [noProblems])
  refine first_of_rules (fun _ => clean rfl) (fun _ found => clean (spliceAt?_shape found).2)
    (fun _ found => clean (directiveAt?_shape found).2)
    (fun _ found => clean (lineCommentAt?_shape found).2) ?_ (fun _ => tokenAt?_within)
    (fun _ => problemsWithin_of_zero (by simp))
  intro segment found
  obtain ⟨closed, _, problems⟩ := blockCommentAt?_shape found
  refine problemsWithin_of_zero ?_
  rw [problems]
  split <;> simp

def ReportsOpenComment (segment : Segment) : Prop :=
  segment.kind = .blockComment false → (0, .unterminatedComment) ∈ segment.problems

theorem first_reportsOpenComment (atLineStart : Bool) (first : Char) (rest : List Char) :
    (Segment.first (cLanguage dialect) atLineStart first rest).ReportsOpenComment := by
  have other {candidate : Segment} (notComment : candidate.kind ≠ .blockComment false) :
      candidate.ReportsOpenComment := fun isComment => absurd isComment notComment
  refine first_of_rules (fun _ => other (by simp))
    (fun _ found => other (by simp [(spliceAt?_shape found).1])) ?_
    (fun _ found => other (by simp [(lineCommentAt?_shape found).1])) ?_ ?_ (fun _ => other (by simp))
  · intro segment found
    obtain ⟨marker, isDirective⟩ := (directiveAt?_shape found).1
    exact other (by simp [isDirective])
  · intro segment found isOpen
    obtain ⟨closed, isComment, problems⟩ := blockCommentAt?_shape found
    rw [isComment] at isOpen
    rw [problems, SegmentKind.blockComment.inj isOpen]
    exact List.mem_singleton_self _
  · intro segment found
    obtain ⟨⟨kind, value, isToken, _⟩, _, _⟩ := tokenAt?_some found
    exact other (by simp [isToken])

end Segment

end CFrontEnd
