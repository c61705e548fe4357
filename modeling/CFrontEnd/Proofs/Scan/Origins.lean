import CFrontEnd.Proofs.Scan.Totality

/-!
Where the tokens of a text come from: each of them is a segment that the rules for tokens found.
-/

namespace CFrontEnd

variable {language : Language} {token : Token}

/-- The token is what the rules for tokens find at the beginning of a text. -/
structure Token.IsFoundIn (token : Token) (language : Language) (first : Char) (rest : List Char)
    (segment : Segment) : Prop where
  found : Segment.tokenAt? language first rest = some segment
  isToken : segment.kind = .token token.kind token.value
  lexeme : token.lexeme = String.ofList ((first :: rest).take segment.length)

namespace Scanner

variable {scanner : Scanner} {first : Char} {rest : List Char} {segment : Segment}

theorem isFoundIn_of_tokenOf (ahead : scanner.reader.rest = first :: rest)
    (isFirst : segment = scanner.segment language first rest)
    (isToken : scanner.tokenOf segment = some token) :
    token.IsFoundIn language first rest segment := by
  cases isKind : segment.kind with
  | token kind value =>
    have found := Segment.first_comesFromToken scanner.reader.place.atLineStart first rest kind
      value (isFirst ▸ isKind)
    rw [tokenOf, isKind, ahead] at isToken
    rw [← Option.some.inj isToken]
    exact ⟨isFirst ▸ found, isKind, rfl⟩
  | _ => simp [tokenOf, isKind] at isToken

/-- Each token is found by the scanner at some place, with the problems that are recorded there, and no
other problem is recorded at the offset of the token. -/
theorem exists_scanner (inFindings : token ∈ (scanner.findings language).tokens) :
    ∃ here : Scanner, ∃ first rest, here.reader.rest = first :: rest ∧
      here.tokenOf (here.segment language first rest) = some token ∧
      (∀ problem ∈ here.problemsOf (here.segment language first rest),
        problem ∈ (scanner.findings language).problems) ∧
      ∀ problem ∈ (scanner.findings language).problems,
        problem.location.offset = token.location.offset →
          problem ∈ here.problemsOf (here.segment language first rest) := by
  induction scanner using segmentInduction language with
  | ended scanner ahead =>
    rw [findings_nil ahead] at inFindings
    cases inFindings
  | step scanner first rest ahead ih =>
    let segment := scanner.segment language first rest
    rw [findings_cons ahead] at inFindings ⊢
    rcases List.mem_append.mp inFindings with isFirst | inRest
    · have isToken := Option.mem_toList.mp isFirst
      refine ⟨scanner, first, rest, ahead, isToken, fun _ => List.mem_append_left _, ?_⟩
      intro problem isProblem sameOffset
      refine (List.mem_append.mp isProblem).resolve_right fun isLater => ?_
      have behind := offset_le_of_problem isLater
      rw [sameOffset, location_of_tokenOf isToken] at behind
      exact absurd behind (Nat.not_le_of_lt (offset_lt_skip segment ahead))
    · obtain ⟨here, other, later, isAhead, isToken, inProblems, isHere⟩ :=
        ih inRest
      refine ⟨here, other, later, isAhead, isToken, fun problem isProblem =>
        List.mem_append_right _ (inProblems problem isProblem), ?_⟩
      intro problem isProblem sameOffset
      refine isHere problem ((List.mem_append.mp isProblem).resolve_left fun isEarlier => ?_)
        sameOffset
      -- There is text behind the segment, so its problems stand in front of all that is found there.
      obtain ⟨found, inSegment, rfl⟩ := List.mem_map.mp isEarlier
      have within : found.1 < segment.length :=
        Segment.first_problemsWithin _ _ _ found inSegment
      have behind := ((scanner.skip segment).findings_tile language).within inRest
      have inText : found.1 < scanner.reader.rest.length := by
        by_contra beyond
        have ended : (scanner.skip segment).reader.rest = [] := by
          rw [rest_skip]
          exact List.drop_eq_nil_of_le (Nat.le_trans (by omega) (Nat.le_of_lt within))
        rw [findings_nil ended] at inRest
        cases inRest
      have further := byteLength_take_lt within inText
      rw [offset_skip] at behind
      rw [offset_placed] at sameOffset
      omega

theorem exists_segment (inFindings : token ∈ (scanner.findings language).tokens) :
    ∃ first rest segment, token.IsFoundIn language first rest segment ∧
      ((scanner.findings language).problems = [] → segment.problems = []) := by
  obtain ⟨here, first, rest, ahead, isToken, inProblems, _⟩ := exists_scanner inFindings
  refine ⟨first, rest, _, isFoundIn_of_tokenOf ahead rfl isToken, fun clean => ?_⟩
  rw [clean] at inProblems
  exact List.map_eq_nil_iff.mp (List.eq_nil_iff_forall_not_mem.mpr fun problem isProblem =>
    List.not_mem_nil (inProblems problem isProblem))

end Scanner

theorem mem_findings_of_tokenize {buffer : SourceBuffer} {diagnostics after : Diagnostics}
    {tokens : TokenStream} (tokenized : tokenize language buffer diagnostics = (tokens, after))
    (inText : token ∈ tokens.body) :
    token ∈ ((Scanner.ofBuffer buffer diagnostics).findings language).tokens := by
  rw [tokenize_findings] at tokenized
  have isBody := congrArg TokenStream.body (congrArg Prod.fst tokenized)
  rw [← isBody] at inText
  exact List.mem_toArray.mp inText

/-- Each token of a text is found in front of some text by the rules for tokens. -/
theorem Token.exists_isFoundIn {buffer : SourceBuffer} {diagnostics after : Diagnostics}
    {tokens : TokenStream} (tokenized : tokenize language buffer diagnostics = (tokens, after))
    (inText : token ∈ tokens.body) :
    ∃ first rest segment, token.IsFoundIn language first rest segment := by
  obtain ⟨first, rest, segment, isFoundIn, _⟩ :=
    Scanner.exists_segment (mem_findings_of_tokenize tokenized inText)
  exact ⟨first, rest, segment, isFoundIn⟩

/-- The problems of a token are among those of its text, at the places that the scanner gives them, and
no others are found at the offset of the token. -/
theorem Token.exists_isFoundAt {buffer : SourceBuffer} {diagnostics after : Diagnostics}
    {tokens : TokenStream} (tokenized : tokenize language buffer diagnostics = (tokens, after))
    (inText : token ∈ tokens.body) :
    ∃ here : Scanner, ∃ first rest segment, token.IsFoundIn language first rest segment ∧
      token.location = here.location ∧
      (∀ problem ∈ here.problemsOf segment, problem ∈ after.toList) ∧
      ∀ problem ∈ after.toList, problem.location.offset = token.location.offset →
        problem ∈ diagnostics.toList ∨ problem ∈ here.problemsOf segment := by
  obtain ⟨here, first, rest, ahead, isToken, inProblems, isHere⟩ :=
    Scanner.exists_scanner (mem_findings_of_tokenize tokenized inText)
  have isAfter : after.toList =
      diagnostics.toList ++ ((Scanner.ofBuffer buffer diagnostics).findings language).problems := by
    rw [tokenize_findings] at tokenized
    rw [← (Prod.mk.inj tokenized).2]
    simp [Diagnostics.toList]
  refine ⟨here, first, rest, _, Scanner.isFoundIn_of_tokenOf ahead rfl isToken,
    Scanner.location_of_tokenOf isToken, ?_, ?_⟩
  · intro problem isProblem
    rw [isAfter]
    exact List.mem_append_right _ (inProblems problem isProblem)
  · intro problem isProblem sameOffset
    rw [isAfter] at isProblem
    exact (List.mem_append.mp isProblem).imp_right fun found => isHere problem found sameOffset

/-- In a text without problems no token has one. -/
theorem Token.exists_isFoundIn_clean {buffer : SourceBuffer} {diagnostics : Diagnostics}
    {tokens : TokenStream} (tokenized : tokenize language buffer diagnostics = (tokens, diagnostics))
    (inText : token ∈ tokens.body) :
    ∃ first rest segment, token.IsFoundIn language first rest segment ∧ segment.problems = [] := by
  obtain ⟨first, rest, segment, isFoundIn, isClean⟩ :=
    Scanner.exists_segment (mem_findings_of_tokenize tokenized inText)
  have clean : ((Scanner.ofBuffer buffer diagnostics).findings language).problems = [] := by
    rw [tokenize_findings] at tokenized
    have same := congrArg Diagnostics.entries (congrArg Prod.snd tokenized)
    simpa using same
  exact ⟨first, rest, segment, isFoundIn, isClean clean⟩

/-- No token of C is written over the end of a line. -/
theorem tokenize_inLine {dialect : Dialect} {buffer : SourceBuffer} {diagnostics after : Diagnostics}
    {tokens : TokenStream}
    (tokenized : tokenize (cLanguage dialect) buffer diagnostics = (tokens, after)) :
    ∀ token ∈ tokens.toList, InLine token.lexeme.toList := by
  intro token inText
  rcases List.mem_append.mp inText with inBody | isFinal
  · obtain ⟨first, rest, segment, isFoundIn⟩ :=
      Token.exists_isFoundIn tokenized (Array.mem_toList_iff.mp inBody)
    have ahead := Segment.tokenAt?_some isFoundIn.found
    rw [isFoundIn.lexeme, String.toList_ofList]
    exact ahead.starts.2
  · obtain rfl := List.mem_singleton.mp isFinal
    exact fun _ inNone => absurd inNone List.not_mem_nil

theorem tokenize_segment {scanner : Scanner} {buffer : SourceBuffer} {diagnostics : Diagnostics}
    {first : Char} {rest : List Char} {segment : Segment} {kind : TokenKind} {value : Option Literal}
    (begins : scanner = Scanner.ofBuffer buffer diagnostics)
    (isText : buffer.characters = first :: rest)
    (isFirst : scanner.segment language first rest = segment)
    (whole : segment.length = (first :: rest).length) (isToken : segment.kind = .token kind value) :
    ∃ tokens, tokenize language buffer diagnostics =
        (tokens, diagnostics.append ⟨(scanner.problemsOf segment).toArray⟩) ∧
      tokens.body.toList.map Token.word = [⟨kind, String.ofList (first :: rest), value⟩] := by
  have ahead : scanner.reader.rest = first :: rest := begins ▸ isText
  have ended : (scanner.skip segment).reader.rest = [] := by
    rw [Scanner.rest_skip, ahead, whole, List.drop_length]
  rw [tokenize_findings, ← begins, Scanner.findings_cons ahead, isFirst, Scanner.findings_nil ended]
  refine ⟨_, by simp [Diagnostics.append]; rfl, ?_⟩
  simp [Scanner.tokenOf, isToken, Token.word, ahead, whole]

end CFrontEnd
